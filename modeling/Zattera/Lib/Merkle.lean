/-
This file is about trees of hashes. The nodes of a level are combined in pairs, and
one that is left over is carried up. Where combining is injective, the root says
which leaves there are, given their number.
-/

import Mathlib.Tactic.Common

namespace Merkle

variable {Node : Type} (combine : Node × Node → Node)

/-- The next level of a tree. -/
def levelUp : List Node → List Node
  | first :: second :: rest => combine (first, second) :: levelUp rest
  | [single] => [single]
  | [] => []

theorem length_levelUp (nodes : List Node) :
    (levelUp combine nodes).length = (nodes.length + 1) / 2 := by
  induction nodes using levelUp.induct with
  | case1 first second rest inductionHypothesis =>
    rw [levelUp, List.length_cons, inductionHypothesis, List.length_cons, List.length_cons]
    omega
  | case2 single => simp [levelUp]
  | case3 => simp [levelUp]

/-- A node that is left over is carried up. -/
theorem levelUp_concat {nodes : List Node} (even : 2 ∣ nodes.length) (last : Node) :
    levelUp combine (nodes ++ [last]) = levelUp combine nodes ++ [last] := by
  induction nodes using levelUp.induct with
  | case1 first second rest inductionHypothesis =>
    rw [List.length_cons, List.length_cons, Nat.add_assoc] at even
    rw [List.cons_append, List.cons_append, levelUp, levelUp,
      inductionHypothesis ((Nat.dvd_add_iff_left (Nat.dvd_refl 2)).mpr even), List.cons_append]
  | case2 single => exact absurd even (by simp)
  | case3 => simp [levelUp]

/-- The root of a tree with some leaves. -/
def root (nodes : List Node) : List Node :=
  if 1 < nodes.length then root (levelUp combine nodes) else nodes
termination_by nodes.length
decreasing_by
  rw [length_levelUp]
  omega

variable {combine} (injective : Function.Injective combine)

include injective

theorem levelUp_injective {first second : List Node} (lengths : first.length = second.length)
    (same : levelUp combine first = levelUp combine second) : first = second := by
  induction first using levelUp.induct generalizing second with
  | case1 left right rest inductionHypothesis =>
    match second with
    | other :: another :: others =>
      rw [levelUp, levelUp, List.cons.injEq] at same
      obtain ⟨rfl, rfl⟩ := Prod.mk.inj (injective same.1)
      rw [inductionHypothesis (by simpa using lengths) same.2]
  | case2 single =>
    match second with
    | [_] => exact same
  | case3 => exact (List.eq_nil_of_length_eq_zero lengths.symm).symm

/-- Trees with as many leaves and the same root have the same leaves. -/
theorem root_injective {first second : List Node} (lengths : first.length = second.length)
    (same : root combine first = root combine second) : first = second := by
  induction count : first.length using Nat.strongRecOn generalizing first second with
  | _ count inductionHypothesis =>
    rw [root, root.eq_def combine second, ← lengths] at same
    split at same
    · next several =>
      have levels : (levelUp combine first).length = (levelUp combine second).length := by
        rw [length_levelUp, length_levelUp, lengths]
      refine levelUp_injective injective lengths (inductionHypothesis _ ?_ levels same rfl)
      rw [length_levelUp]
      omega
    · exact same

end Merkle
