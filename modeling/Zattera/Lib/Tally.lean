/-
This file is about maps of counts, as lists of entries in the order of their keys. A
map made by counting some keys one after the other has an entry for each of them,
with how often it occurs.
-/

import Mathlib.Data.List.Basic

namespace Tally

variable {Key : Type} [DecidableEq Key] (before : Key → Key → Prop) [DecidableRel before]

/-- One more of a key. -/
def count (key : Key) : List (Key × Nat) → List (Key × Nat)
  | [] => [(key, 1)]
  | (other, number) :: rest =>
    if key = other then (other, number + 1) :: rest
    else if before key other then (key, 1) :: (other, number) :: rest
    else (other, number) :: count key rest

/-- The map that counts some keys. -/
def tally (keys : List Key) : List (Key × Nat) :=
  keys.foldl (fun entries key => count before key entries) []

/-- What the entries of some keys add up to. -/
def total (chosen : Key → Bool) : List (Key × Nat) → Nat
  | [] => 0
  | entry :: rest => (if chosen entry.1 then entry.2 else 0) + total chosen rest

omit [DecidableEq Key] in
theorem total_cons (chosen : Key → Bool) (entry : Key × Nat) (rest : List (Key × Nat)) :
    total chosen (entry :: rest) = (if chosen entry.1 then entry.2 else 0) + total chosen rest := rfl

omit [DecidableEq Key] in
theorem total_eq_zero {chosen : Key → Bool} {entries : List (Key × Nat)}
    (none : ∀ entry ∈ entries, chosen entry.1 = false) : total chosen entries = 0 := by
  induction entries with
  | nil => rfl
  | cons entry rest inductionHypothesis =>
    rw [List.forall_mem_cons] at none
    rw [total_cons, none.1, inductionHypothesis none.2]
    rfl

theorem total_count (chosen : Key → Bool) (key : Key) (entries : List (Key × Nat)) :
    total chosen (count before key entries) =
      total chosen entries + if chosen key then 1 else 0 := by
  induction entries with
  | nil => exact Nat.add_comm _ _
  | cons entry rest inductionHypothesis =>
    unfold count
    split
    · next same =>
      rw [total_cons, total_cons, same]
      split <;> omega
    · split
      · rw [total_cons, Nat.add_comm]
      · rw [total_cons, total_cons, inductionHypothesis, Nat.add_assoc]

theorem total_foldl (chosen : Key → Bool) (keys : List Key) (entries : List (Key × Nat)) :
    total chosen (keys.foldl (fun entries key => count before key entries) entries) =
      total chosen entries + keys.countP chosen := by
  induction keys generalizing entries with
  | nil => rfl
  | cons key rest inductionHypothesis =>
    rw [List.foldl_cons, inductionHypothesis, total_count, List.countP_cons]
    omega

/-- The entries add up to the number of keys. -/
theorem total_tally (chosen : Key → Bool) (keys : List Key) :
    total chosen (tally before keys) = keys.countP chosen :=
  (total_foldl before chosen keys []).trans (Nat.zero_add _)

/-! ### The order of the entries -/

theorem key_of_mem_count {key : Key} {entries : List (Key × Nat)} {entry : Key × Nat}
    (member : entry ∈ count before key entries) :
    entry.1 = key ∨ ∃ other ∈ entries, other.1 = entry.1 := by
  induction entries with
  | nil => exact .inl (congrArg Prod.fst (List.mem_singleton.mp member))
  | cons first rest inductionHypothesis =>
    unfold count at member
    split at member
    · next same =>
      rcases List.mem_cons.mp member with rfl | member
      · exact .inl same.symm
      · exact .inr ⟨entry, .tail _ member, rfl⟩
    · split at member
      · rcases List.mem_cons.mp member with rfl | member
        · exact .inl rfl
        · exact .inr ⟨entry, member, rfl⟩
      · rcases List.mem_cons.mp member with rfl | member
        · exact .inr ⟨_, .head _, rfl⟩
        · rcases inductionHypothesis member with same | ⟨other, listed, same⟩
          · exact .inl same
          · exact .inr ⟨other, .tail _ listed, same⟩

/-- The entries are in order, without two for the same key. -/
def Sorted (entries : List (Key × Nat)) : Prop :=
  entries.Pairwise fun first second => before first.1 second.1

section Order

variable {before} [IsTrans Key before] [Std.Trichotomous before]

theorem sorted_count {key : Key} {entries : List (Key × Nat)} (sorted : Sorted before entries) :
    Sorted before (count before key entries) := by
  induction entries with
  | nil => exact List.pairwise_singleton _ _
  | cons entry rest inductionHypothesis =>
    obtain ⟨first, others⟩ := List.pairwise_cons.mp sorted
    unfold count
    split
    · exact List.pairwise_cons.mpr ⟨first, others⟩
    · next different =>
      split
      · next earlier =>
        refine List.pairwise_cons.mpr ⟨List.forall_mem_cons.mpr ⟨earlier, fun other member => ?_⟩,
          sorted⟩
        exact IsTrans.trans _ _ _ earlier (first other member)
      · next later =>
        refine List.pairwise_cons.mpr ⟨fun other member => ?_, inductionHypothesis others⟩
        rcases key_of_mem_count before member with same | ⟨listed, member, same⟩
        · rw [same]
          by_contra notBefore
          exact different (Std.Trichotomous.trichotomous _ _ later notBefore)
        · rw [← same]
          exact first listed member

theorem sorted_tally (keys : List Key) : Sorted before (tally before keys) := by
  have kept (entries : List (Key × Nat)) (sorted : Sorted before entries) :
      Sorted before (keys.foldl (fun entries key => count before key entries) entries) := by
    induction keys generalizing entries with
    | nil => exact sorted
    | cons key rest inductionHypothesis => exact inductionHypothesis _ (sorted_count sorted)
  exact kept [] List.Pairwise.nil

/-! ### The entry of a key -/

variable [Std.Irrefl before]

omit [DecidableRel before] [IsTrans Key before] [Std.Trichotomous before] in
theorem total_of_mem {key : Key} {number : Nat} {entries : List (Key × Nat)}
    (sorted : Sorted before entries) (member : (key, number) ∈ entries) :
    total (· = key) entries = number := by
  induction entries with
  | nil => cases member
  | cons entry rest inductionHypothesis =>
    obtain ⟨first, others⟩ := List.pairwise_cons.mp sorted
    rw [total_cons]
    rcases List.mem_cons.mp member with rfl | member
    · have none : total (· = key) rest = 0 := total_eq_zero fun other listed =>
        decide_eq_false fun same => Std.Irrefl.irrefl key (same ▸ first other listed)
      rw [none, if_pos (decide_eq_true rfl)]
      rfl
    · have different : entry.1 ≠ key := by
        rintro rfl
        exact Std.Irrefl.irrefl _ (first (entry.1, number) member)
      rw [inductionHypothesis others member, if_neg (by simpa using different), Nat.zero_add]

/-- An entry says how often its key occurs. -/
theorem count_of_mem {keys : List Key} {key : Key} {number : Nat}
    (member : (key, number) ∈ tally before keys) : keys.count key = number := by
  rw [← total_of_mem (sorted_tally keys) member, total_tally]
  rfl

theorem mem_tally {keys : List Key} {key : Key} (occurs : key ∈ keys) :
    (key, keys.count key) ∈ tally before keys := by
  by_contra absent
  have none : total (· = key) (tally before keys) = 0 := by
    refine total_eq_zero fun entry member => decide_eq_false ?_
    rintro rfl
    rw [count_of_mem member] at absent
    exact absent member
  rw [total_tally] at none
  exact absurd none (Nat.ne_of_gt (List.count_pos_iff.mpr occurs))

end Order

end Tally
