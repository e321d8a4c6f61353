/-
This file collects what is needed to reason about quorums: how many numbers of a
list are at least the one at some place of its ascending order, and how much two
large parts of a finite set have in common.
-/

import Mathlib.Data.Finset.Card
import Mathlib.Data.List.GetD
import Mathlib.Data.List.Sort

namespace Quorum

/-- All but `place` numbers are at least the one at that place of the ascending order. -/
theorem length_le_countP_add {numbers : List Nat} {place bound : Nat} (positive : 0 < bound)
    (reached : bound ≤ (numbers.insertionSort (· ≤ ·)).getD place 0) :
    numbers.length ≤ numbers.countP (bound ≤ ·) + place := by
  have inside : place < (numbers.insertionSort (· ≤ ·)).length := by
    by_contra outside
    rw [List.getD_eq_default _ _ (Nat.le_of_not_lt outside)] at reached
    omega
  have sorted : (numbers.insertionSort (· ≤ ·)).Pairwise (· ≤ ·) :=
    List.pairwise_insertionSort _ _
  have same := List.perm_insertionSort (· ≤ ·) numbers
  generalize numbers.insertionSort (· ≤ ·) = ordered at *
  rw [List.getD_eq_getElem _ _ inside] at reached
  have above : (ordered.drop place).countP (bound ≤ ·) = (ordered.drop place).length := by
    rw [List.countP_eq_length]
    intro number member
    obtain ⟨further, within, rfl⟩ := List.getElem_of_mem member
    rw [List.getElem_drop, decide_eq_true_eq]
    rcases Nat.eq_zero_or_pos further with rfl | later
    · exact reached
    · exact reached.trans (List.pairwise_iff_getElem.mp sorted _ _ inside _ (by omega))
  have part : (ordered.drop place).countP (bound ≤ ·) ≤ ordered.countP (bound ≤ ·) :=
    (List.drop_sublist place ordered).countP_le
  rw [← same.length_eq, ← same.countP_eq]
  rw [above, List.length_drop] at part
  omega

/-- Two parts of a set that miss at most `missing` members each. -/
theorem card_le_card_inter_add {Member : Type} [DecidableEq Member]
    {all first second : Finset Member} {missing : Nat} (firstPart : first ⊆ all)
    (secondPart : second ⊆ all) (manyFirst : all.card ≤ first.card + missing)
    (manySecond : all.card ≤ second.card + missing) :
    all.card ≤ (first ∩ second).card + 2 * missing := by
  have together := Finset.card_inter_add_card_union first second
  have bounded := Finset.card_le_card (Finset.union_subset firstPart secondPart)
  omega

end Quorum
