/-
This file is a library on systems that leave a trace: a step takes a state to a
state and may leave one event behind, and a run collects the events of its steps.
A run can be cut at any of its events, and being joined by a run is a preorder.
-/

import Mathlib.Order.Defs.Unbundled

namespace Trace

/-- A run from one state to another, with the events its steps leave behind. -/
inductive Run {State Event : Type} (Step : State → Option Event → State → Prop) :
    State → List Event → State → Prop
  | start {s : State} : Run Step s [] s
  | silent {s u t : State} {events : List Event} (earlier : Run Step s events u)
      (step : Step u none t) : Run Step s events t
  | event {s u t : State} {events : List Event} {event : Event} (earlier : Run Step s events u)
      (step : Step u (some event) t) : Run Step s (events ++ [event]) t

section Run

variable {State Event : Type} {Step : State → Option Event → State → Prop}
  {s u t : State} {events more : List Event}

theorem Run.trans (first : Run Step s events u) (second : Run Step u more t) :
    Run Step s (events ++ more) t := by
  induction second with
  | start =>
    rw [List.append_nil]
    exact first
  | silent _ step inductionHypothesis => exact inductionHypothesis.silent step
  | event _ step inductionHypothesis =>
    rw [← List.append_assoc]
    exact inductionHypothesis.event step

/-- A run that leaves an event behind has a step that left it. -/
theorem Run.split {earlier later : List Event} {event : Event}
    (run : Run Step s (earlier ++ event :: later) t) :
    ∃ before after, Run Step s earlier before ∧ Step before (some event) after ∧
      Run Step after later t := by
  generalize whole : earlier ++ event :: later = all at run
  induction run generalizing later with
  | start => exact absurd whole (List.append_ne_nil_of_right_ne_nil _ (List.cons_ne_nil _ _))
  | silent _ step inductionHypothesis =>
    obtain ⟨before, after, first, middle, last⟩ := inductionHypothesis whole
    exact ⟨before, after, first, middle, last.silent step⟩
  | event first step inductionHypothesis =>
    -- the event is the last one, or the last one comes after it
    rcases List.eq_nil_or_concat later with rfl | ⟨rest, last, rfl⟩
    · obtain ⟨rfl, same⟩ := List.append_inj' whole rfl
      obtain rfl := List.head_eq_of_cons_eq same
      exact ⟨_, _, first, step, .start⟩
    · rw [List.concat_eq_append, ← List.cons_append, ← List.append_assoc] at whole
      obtain ⟨shorter, same⟩ := List.append_inj' whole rfl
      obtain rfl := List.head_eq_of_cons_eq same
      obtain ⟨before, after, first, middle, last⟩ := inductionHypothesis shorter
      refine ⟨before, after, first, middle, ?_⟩
      rw [List.concat_eq_append]
      exact last.event step

/-- A view of the states that goes along with every step goes along with every run, and shows those
events that it has a picture of. -/
theorem Run.map {View Picture : Type} {Seen : View → Option Picture → View → Prop}
    (view : State → View) (picture : Event → Option Picture)
    (along : ∀ {s event t}, Step s event t → Seen (view s) (event.bind picture) (view t))
    (run : Run Step s events t) : Run Seen (view s) (events.filterMap picture) (view t) := by
  induction run with
  | start => exact .start
  | silent _ step inductionHypothesis => exact inductionHypothesis.silent (along step)
  | @event _ _ _ event _ step inductionHypothesis =>
    have step := along step
    rw [List.filterMap_append, List.filterMap_cons, List.filterMap_nil]
    rw [Option.bind_some] at step
    cases shown : picture event with
    | none =>
      rw [shown] at step
      rw [List.append_nil]
      exact inductionHypothesis.silent step
    | some seen =>
      rw [shown] at step
      exact inductionHypothesis.event step

end Run

/-- Some run leads from one state to the other. -/
def Reaches {State Event : Type} (Step : State → Option Event → State → Prop) (s t : State) : Prop :=
  ∃ events, Run Step s events t

section Reaches

variable {State Event : Type} {Step : State → Option Event → State → Prop} {s t : State}

instance : Std.Refl (Reaches Step) := ⟨fun _ => ⟨[], .start⟩⟩

instance : IsTrans State (Reaches Step) where
  trans _ _ _ := by
    rintro ⟨_, first⟩ ⟨_, second⟩
    exact ⟨_, first.trans second⟩

theorem reaches_of_step {event : Option Event} (step : Step s event t) : Reaches Step s t := by
  cases event with
  | none => exact ⟨[], Run.start.silent step⟩
  | some event => exact ⟨[] ++ [event], Run.start.event step⟩

end Reaches

end Trace
