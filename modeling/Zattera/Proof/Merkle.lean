/-
This file proves that the Merkle root of a block says which transactions the block
has, given how many there are. The loops that fold the digests in place compute the
root of the tree of hashes over them.
-/

import Mathlib.Data.List.GetD
import Zattera.Lib.Merkle
import Zattera.Protocol.Merkle

namespace Zattera

namespace Hashing

open Merkle

variable {Packed Digest Checksum : Type}

/-! ### The loops -/

theorem take_succ_set {ids : List Digest} {k : Nat} (inside : k < ids.length) (id : Digest) :
    (ids.set k id).take (k + 1) = ids.take k ++ [id] := by
  rw [List.set_eq_take_append_cons_drop, if_pos inside]
  have placed : (ids.take k ++ [id]).length = k + 1 := by
    rw [List.length_append, List.length_take, Nat.min_eq_left inside.le]
    rfl
  rw [List.append_cons, ← placed, List.take_left]

variable [Inhabited Digest] (hashing : Hashing Packed Digest Checksum)

/-- The pairs of a part of the ids, once the loop is through with it. -/
theorem hashPairs_snd {iMax i k : Nat} {ids : List Digest} (behind : k ≤ i)
    (inside : iMax ≤ ids.length) (even : 2 ∣ iMax - i) :
    (hashing.hashPairs iMax i k ids).2.take (hashing.hashPairs iMax i k ids).1 =
        ids.take k ++ levelUp hashing.hashPair ((ids.drop i).take (iMax - i)) ∧
      (hashing.hashPairs iMax i k ids).2.drop iMax = ids.drop iMax ∧
      (hashing.hashPairs iMax i k ids).2.length = ids.length := by
  fun_induction hashPairs hashing iMax i k ids with
  | case1 i k ids more inductionHypothesis =>
    obtain ⟨pairs, half⟩ := even
    have first : i < ids.length := by omega
    have second : i + 1 < ids.length := by omega
    obtain ⟨taken, dropped, length⟩ :=
      inductionHypothesis (by omega) (by rwa [List.length_set]) ⟨pairs - 1, by omega⟩
    have piece : (ids.drop i).take (iMax - i) =
        ids[i] :: ids[i + 1] :: (ids.drop (i + 2)).take (iMax - (i + 2)) := by
      rw [List.drop_eq_getElem_cons first, List.drop_eq_getElem_cons second,
        show iMax - i = iMax - (i + 2) + 1 + 1 by omega, List.take_succ_cons, List.take_succ_cons]
    refine ⟨?_, ?_, length.trans List.length_set⟩
    · rw [taken, take_succ_set (by omega), List.drop_set_of_lt (by omega), piece, levelUp,
        List.append_assoc, List.getD_eq_getElem _ _ first, List.getD_eq_getElem _ _ second]
      rfl
    · rw [dropped, List.drop_set_of_lt (by omega)]
  | case2 i k ids done =>
    have none : iMax - i = 0 := by omega
    refine ⟨?_, rfl, rfl⟩
    rw [none, List.take_zero, levelUp, List.append_nil]

theorem length_hashLevel {count : Nat} {ids : List Digest} (inside : count ≤ ids.length) :
    (hashing.hashLevel count ids).2.length = ids.length := by
  obtain ⟨_, _, length⟩ := hashing.hashPairs_snd (Nat.zero_le 0)
    (by omega : count - count % 2 ≤ ids.length) (by omega)
  dsimp only [hashLevel]
  split
  · rw [List.length_set, length]
  · exact length

/-- One round leaves the next level of the tree in the first places. -/
theorem hashLevel_take {count : Nat} {ids : List Digest} (inside : count ≤ ids.length) :
    (hashing.hashLevel count ids).2.take (hashing.hashLevel count ids).1 =
      levelUp hashing.hashPair (ids.take count) := by
  obtain ⟨taken, dropped, length⟩ := hashing.hashPairs_snd (Nat.zero_le 0)
    (by omega : count - count % 2 ≤ ids.length) (by omega)
  rw [List.take_zero, List.nil_append, List.drop_zero, Nat.sub_zero] at taken
  dsimp only [hashLevel]
  split
  · next odd =>
    have last : count - count % 2 < ids.length := by omega
    have number := hashing.hashPairs_fst (count - count % 2) 0 0 ids
    have carried : (hashing.hashPairs (count - count % 2) 0 0 ids).2.getD (count - count % 2) default =
        ids[count - count % 2] := by
      rw [List.drop_eq_getElem_cons last, List.drop_eq_getElem_cons (by omega)] at dropped
      rw [List.getD_eq_getElem _ _ (by omega)]
      exact (List.cons.inj dropped).1
    rw [take_succ_set (by omega), taken, carried, ← levelUp_concat, List.take_append_getElem last]
    · rw [show count - count % 2 + 1 = count by omega]
    · rw [List.length_take]
      omega
  · next even =>
    rw [taken, show count - count % 2 = count by omega]

/-- The loop over the levels reaches the root of the tree. -/
theorem hashLevels_take {count : Nat} {ids : List Digest} (inside : count ≤ ids.length)
    (some : 1 ≤ count) :
    (hashing.hashLevels count ids).take 1 = root hashing.hashPair (ids.take count) := by
  fun_induction hashLevels hashing count ids with
  | case1 count ids several inductionHypothesis =>
    have number := hashing.hashLevel_fst count ids
    have length := hashing.length_hashLevel inside
    rw [inductionHypothesis (by omega) (by omega), hashLevel_take hashing inside,
      root.eq_def _ (ids.take count), if_pos]
    rw [List.length_take]
    omega
  | case2 count ids single =>
    obtain rfl : count = 1 := by omega
    rw [root, if_neg]
    rw [List.length_take]
    omega

/-! ### The root of a block -/

theorem length_hashLevels {count : Nat} {ids : List Digest} (inside : count ≤ ids.length) :
    (hashing.hashLevels count ids).length = ids.length := by
  fun_induction hashLevels hashing count ids with
  | case1 count ids several inductionHypothesis =>
    have number := hashing.hashLevel_fst count ids
    have length := hashing.length_hashLevel inside
    exact (inductionHypothesis (by omega)).trans length
  | case2 => rfl

theorem root_ids {ids : List Digest} (some : 1 ≤ ids.length) :
    root hashing.hashPair ids = [(hashing.hashLevels ids.length ids).getD 0 default] := by
  have reached := hashing.hashLevels_take (Nat.le_refl ids.length) some
  have length := hashing.length_hashLevels (Nat.le_refl ids.length)
  rw [List.take_length] at reached
  rw [← reached]
  generalize hashing.hashLevels ids.length ids = left at length
  cases left with
  | nil =>
    rw [← length] at some
    cases some
  | cons id rest => rfl

/-- What is hashed, in place of a hash of it. -/
inductive Preimage where
  | blank
  | trx (packed : SignedTransaction)
  | pair (first second : Preimage)
  deriving Inhabited

def preimages : Hashing SignedTransaction Preimage Preimage where
  pack trx := trx
  encode := .trx
  hashPair pair := .pair pair.1 pair.2
  checksum digest := digest

/-- A block of one transaction without operations. -/
def idleBlock : SignedBlock where
  previous := default
  timestamp := 3
  witness := default
  transactionMerkleRoot := 0
  extensions := []
  transactions := [⟨0, 0, 0, 0, [], []⟩]
  hash := 0
  signee := default
  calculatedMerkleRoot := 0
  size := 0

end Hashing

end Zattera
