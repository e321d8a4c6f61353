/-
This file is about digits that check others. An automaton reads a word of digits; if
its steps are injective in the state and in the digit, and tell two digits from the
same digits the other way round, then it ends elsewhere after a slip of the pen.
-/

import Mathlib.Tactic.Common

namespace CheckDigit

/-- One digit is another, or two different neighbours are the other way round. -/
inductive Mistake {Digit : Type} : List Digit → List Digit → Prop
  | changed (before after : List Digit) {digit other : Digit} (different : digit ≠ other) :
    Mistake (before ++ digit :: after) (before ++ other :: after)
  | swapped (before after : List Digit) {first second : Digit} (different : first ≠ second) :
    Mistake (before ++ first :: second :: after) (before ++ second :: first :: after)

theorem Mistake.length_eq {Digit : Type} {digits written : List Digit}
    (mistake : Mistake digits written) : written.length = digits.length := by
  cases mistake with
  | changed => simp
  | swapped => simp

variable {State Digit : Type} {step : State → Digit → State}

theorem foldl_injective (columns : ∀ digit, Function.Injective (step · digit)) (digits : List Digit) :
    Function.Injective (digits.foldl step) := by
  induction digits with
  | nil => exact Function.injective_id
  | cons digit rest inductionHypothesis => exact inductionHypothesis.comp (columns digit)

/-- A mistake changes the state that the automaton ends in. -/
theorem foldl_ne_of_mistake (columns : ∀ digit, Function.Injective (step · digit))
    (rows : ∀ state, Function.Injective (step state))
    (ordered : ∀ state first second, step (step state first) second =
      step (step state second) first → first = second)
    {digits written : List Digit} (mistake : Mistake digits written) (state : State) :
    written.foldl step state ≠ digits.foldl step state := by
  intro same
  cases mistake with
  | changed before after different =>
    rw [List.foldl_append, List.foldl_append] at same
    exact different (rows _ (foldl_injective columns after same)).symm
  | swapped before after different =>
    rw [List.foldl_append, List.foldl_append] at same
    exact different (ordered _ _ _ (foldl_injective columns after same)).symm

end CheckDigit
