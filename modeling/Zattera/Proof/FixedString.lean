/-
This file proves that a `fixed_string` is as good as the string it was made from.
Strings that fit and have no zero byte are read back, and they compare as their
bytes do, whatever words they are kept in. The argument is about one word, and
about storage made of two parts.
-/

import Zattera.Protocol.FixedString

namespace Zattera

open Storage

/-! ### Bytes in order -/

theorem append_lt_append_iff {first second rest others : Text} (same : first.length = second.length) :
    first ++ rest < second ++ others ↔ first < second ∨ first = second ∧ rest < others := by
  induction first generalizing second with
  | nil =>
    obtain rfl := List.eq_nil_of_length_eq_zero same.symm
    simp
  | cons byte bytes inductionHypothesis =>
    obtain ⟨other, tail, rfl⟩ := List.exists_cons_of_length_eq_add_one same.symm
    rw [List.cons_append, List.cons_append, List.cons_lt_cons_iff, List.cons_lt_cons_iff,
      inductionHypothesis (Nat.add_right_cancel same), List.cons.injEq]
    tauto

/-- A string in memory of some size, with zero bytes behind it. -/
def padded (size : Nat) (str : Text) : Text := str ++ List.replicate (size - str.length) 0

theorem length_padded {size : Nat} {str : Text} (fits : str.length ≤ size) :
    (padded size str).length = size := by
  rw [padded, List.length_append, List.length_replicate]
  omega

theorem takeWhile_padded {size : Nat} {str : Text} (whole : 0 ∉ str) :
    (padded size str).takeWhile (· ≠ 0) = str := by
  rw [padded, List.takeWhile_append_of_pos]
  · cases size - str.length <;> simp [List.replicate_succ]
  · intro byte member
    exact decide_eq_true fun zero => whole (zero ▸ member)

theorem padded_cons (size : Nat) (byte : UInt8) (rest : Text) :
    padded (size + 1) (byte :: rest) = byte :: padded size rest := by
  rw [padded, List.length_cons, Nat.add_sub_add_right]
  rfl

/-- Zero bytes come before all others, as the end of a string does. -/
theorem padded_lt_iff {size : Nat} {s t : Text} (wholeS : 0 ∉ s) (wholeT : 0 ∉ t)
    (fitsS : s.length ≤ size) (fitsT : t.length ≤ size) : padded size s < padded size t ↔ s < t := by
  induction size generalizing s t with
  | zero =>
    obtain rfl := List.eq_nil_of_length_eq_zero (Nat.le_zero.mp fitsS)
    obtain rfl := List.eq_nil_of_length_eq_zero (Nat.le_zero.mp fitsT)
    rfl
  | succ size inductionHypothesis =>
    have zeros : padded (size + 1) [] = 0 :: padded size [] := List.replicate_succ
    cases s with
    | nil =>
      cases t with
      | nil => simp
      | cons byte rest =>
        have positive : 0 < byte := UInt8.pos_iff_ne_zero.mpr (List.ne_of_not_mem_cons wholeT).symm
        simp [zeros, padded_cons, List.cons_lt_cons_iff, positive]
    | cons byte rest =>
      have nonzero : byte ≠ 0 := (List.ne_of_not_mem_cons wholeS).symm
      cases t with
      | nil => simp [zeros, padded_cons, List.cons_lt_cons_iff, nonzero]
      | cons other others =>
        rw [padded_cons, padded_cons, List.cons_lt_cons_iff, List.cons_lt_cons_iff,
          inductionHypothesis (List.not_mem_of_not_mem_cons wholeS)
            (List.not_mem_of_not_mem_cons wholeT) (Nat.le_of_succ_le_succ fitsS)
            (Nat.le_of_succ_le_succ fitsT)]

/-! ### Storage -/

/-- Storage that gives back the bytes it was loaded with, and compares as they do when each word
was turned around. -/
class LawfulStorage (S : Type) [Storage S] : Prop where
  stored (bytes : Text) (fills : bytes.length = size S) :
    store (endianReverse (endianReverse (load bytes : S))) = bytes
  ordered (first second : Text) (fillsFirst : first.length = size S)
    (fillsSecond : second.length = size S) :
    less (endianReverse (load first : S)) (endianReverse (load second)) = true ↔ first < second
  blank : store (default : S) = List.replicate (size S) 0

theorem toNat_load {bytes : Text} (fills : bytes.length = 8) :
    (load bytes : UInt64).toNat = Bytes.decode bytes := by
  have small := Bytes.decode_lt bytes
  rw [fills] at small
  exact Nat.mod_eq_of_lt small

theorem store_load {bytes : Text} (fills : bytes.length = 8) :
    store (load bytes : UInt64) = bytes := by
  change Bytes.encode 8 (load bytes : UInt64).toNat = bytes
  rw [toNat_load fills, ← fills]
  exact Bytes.encode_decode bytes

theorem endianReverse_load {bytes : Text} (fills : bytes.length = 8) :
    endianReverse (load bytes : UInt64) = load bytes.reverse := by
  change UInt64.ofNat (Bytes.decode (store (load bytes : UInt64)).reverse) = _
  rw [store_load fills]
  rfl

theorem toNat_endianReverse_load {bytes : Text} (fills : bytes.length = 8) :
    (endianReverse (load bytes : UInt64)).toNat = Bytes.bigEndian bytes := by
  rw [endianReverse_load fills, toNat_load (List.length_reverse.trans fills)]
  rfl

instance : LawfulStorage UInt64 where
  stored bytes fills := by
    have turned : bytes.reverse.length = 8 := List.length_reverse.trans fills
    rw [endianReverse_load fills, endianReverse_load turned, List.reverse_reverse, store_load fills]
  ordered first second fillsFirst fillsSecond := by
    change decide (endianReverse (load first : UInt64) < endianReverse (load second)) = true ↔ _
    rw [decide_eq_true_eq, UInt64.lt_iff_toNat_lt, toNat_endianReverse_load fillsFirst,
      toNat_endianReverse_load fillsSecond]
    exact Bytes.bigEndian_lt_iff (fillsFirst.trans fillsSecond.symm)
  blank := by decide

section Pairs

variable {A B : Type} [Storage A] [Storage B]

theorem exists_parts {bytes : Text} (fills : bytes.length = size (Erpair A B)) :
    ∃ front back, bytes = front ++ back ∧ front.length = size A ∧ back.length = size B := by
  change bytes.length = size A + size B at fills
  refine ⟨bytes.take (size A), bytes.drop (size A), (List.take_append_drop _ _).symm, ?_, ?_⟩
  · rw [List.length_take]
    omega
  · rw [List.length_drop]
    omega

theorem load_append {front back : Text} (fills : front.length = size A) :
    (load (front ++ back) : Erpair A B) = ⟨load front, load back⟩ := by
  change Erpair.mk (load ((front ++ back).take (size A))) (load ((front ++ back).drop (size A))) = _
  rw [List.take_left' fills, List.drop_left' fills]

instance [LawfulStorage A] [LawfulStorage B] : LawfulStorage (Erpair A B) where
  stored bytes fills := by
    obtain ⟨front, back, rfl, fillsFront, fillsBack⟩ := exists_parts fills
    rw [load_append fillsFront]
    change store (endianReverse (endianReverse (load front : A))) ++
      store (endianReverse (endianReverse (load back : B))) = _
    rw [LawfulStorage.stored front fillsFront, LawfulStorage.stored back fillsBack]
  ordered first second fillsFirst fillsSecond := by
    obtain ⟨front, back, rfl, fillsFront, fillsBack⟩ := exists_parts fillsFirst
    obtain ⟨fore, rest, rfl, fillsFore, fillsRest⟩ := exists_parts fillsSecond
    rw [load_append fillsFront, load_append fillsFore,
      append_lt_append_iff (fillsFront.trans fillsFore.symm)]
    change (less (endianReverse (load front : A)) (endianReverse (load fore)) ||
      (!less (endianReverse (load fore : A)) (endianReverse (load front)) &&
        less (endianReverse (load back : B)) (endianReverse (load rest)))) = true ↔ _
    rw [Bool.or_eq_true, Bool.and_eq_true, Bool.not_eq_true', ← Bool.not_eq_true,
      LawfulStorage.ordered front fore fillsFront fillsFore,
      LawfulStorage.ordered fore front fillsFore fillsFront,
      LawfulStorage.ordered back rest fillsBack fillsRest]
    refine or_congr_right' fun notBefore => and_congr_left fun _ => ?_
    refine ⟨fun notAfter => ?_, fun same => same ▸ notBefore⟩
    exact List.le_antisymm (List.not_lt.mp notAfter) (List.not_lt.mp notBefore)
  blank := by
    change store (default : A) ++ store (default : B) = List.replicate (size A + size B) 0
    rw [LawfulStorage.blank, LawfulStorage.blank, List.replicate_append_replicate]

end Pairs

/-- The operator `<` of `fc::uint128` is that of a pair. -/
theorem less_uint128 (a b : Uint128Layout) :
    less a b = less (⟨a.hi, a.lo⟩ : Erpair UInt64 UInt64) ⟨b.hi, b.lo⟩ := by
  change (if a.hi = b.hi then decide (a.lo < b.lo) else decide (a.hi < b.hi)) =
    (decide (a.hi < b.hi) || (!decide (b.hi < a.hi) && decide (a.lo < b.lo)))
  rw [Bool.eq_iff_iff]
  simp only [UInt64.lt_iff_toNat_lt, ← UInt64.toNat_inj]
  split <;> simp <;> omega

instance : LawfulStorage Uint128Layout where
  stored := LawfulStorage.stored (S := Erpair UInt64 UInt64)
  ordered first second fillsFirst fillsSecond := by
    rw [less_uint128]
    exact LawfulStorage.ordered (S := Erpair UInt64 UInt64) first second fillsFirst fillsSecond
  blank := by decide

instance : (N : FixedStringSize) → LawfulStorage N.StorageType
  | .bytes16 => inferInstanceAs (LawfulStorage Uint128Layout)
  | .bytes24 => inferInstanceAs (LawfulStorage (Erpair Uint128Layout UInt64))
  | .bytes32 => inferInstanceAs (LawfulStorage (Erpair Uint128Layout Uint128Layout))

/-! ### Strings -/

section Strings

variable {S : Type} [Storage S] [LawfulStorage S] {s t : Text}

theorem ofStdString_eq (fits : s.length ≤ size S) :
    FixedString.ofStdString s = ⟨endianReverse (load (padded (size S) s) : S)⟩ := by
  dsimp only [FixedString.ofStdString]
  rw [if_pos fits, LawfulStorage.blank, List.drop_replicate]
  rfl

theorem toStdString_ofStdString (whole : 0 ∉ s) (fits : s.length ≤ size S) :
    (FixedString.ofStdString s : FixedString S).toStdString = s := by
  rw [ofStdString_eq fits, FixedString.toStdString, LawfulStorage.stored _ (length_padded fits),
    takeWhile_padded whole]

theorem ofStdString_lt_iff (wholeS : 0 ∉ s) (wholeT : 0 ∉ t) (fitsS : s.length ≤ size S)
    (fitsT : t.length ≤ size S) :
    (FixedString.ofStdString s : FixedString S) < .ofStdString t ↔ s < t := by
  rw [ofStdString_eq fitsS, ofStdString_eq fitsT, ← padded_lt_iff wholeS wholeT fitsS fitsT]
  exact LawfulStorage.ordered _ _ (length_padded fitsS) (length_padded fitsT)

end Strings

theorem size_storageType (N : FixedStringSize) : size N.StorageType = N.bytes := by
  cases N <;> rfl

/-- Strings without zero bytes survive in a `fixed_string` that is large enough for them, and so
does their order. -/
theorem fixedString_faithful (N : FixedStringSize) (s t : Text) (fitsS : s.length ≤ N.bytes)
    (fitsT : t.length ≤ N.bytes) (wholeS : 0 ∉ s) (wholeT : 0 ∉ t) :
    (FixedString.ofStdString s : FixedString N.StorageType).toStdString = s ∧
      ((FixedString.ofStdString s : FixedString N.StorageType) < .ofStdString t ↔ s < t) ∧
      ((FixedString.ofStdString s : FixedString N.StorageType) = .ofStdString t ↔ s = t) ∧
      ((FixedString.ofStdString t : FixedString N.StorageType) < .ofStdString s ↔ t < s) := by
  rw [← size_storageType] at fitsS fitsT
  have readS := toStdString_ofStdString wholeS fitsS
  have readT := toStdString_ofStdString wholeT fitsT
  refine ⟨readS, ofStdString_lt_iff wholeS wholeT fitsS fitsT, ⟨fun same => ?_, fun same => ?_⟩,
    ofStdString_lt_iff wholeT wholeS fitsT fitsS⟩
  · rw [← readS, same, readT]
  · rw [same]

theorem fixedString_faithful_alice :
    (FixedString.ofStdString [97, 108, 105, 99, 101] : FixedString Uint128Layout).toStdString =
      [97, 108, 105, 99, 101] :=
  (fixedString_faithful .bytes16 [97, 108, 105, 99, 101] [98, 111, 98] (by decide) (by decide)
    (by decide) (by decide)).1

/-! ### Names of accounts -/

theorem foldl_eq_bigEndian (bytes : Text) (value : Nat) :
    (bytes.map UInt8.toNat).foldl (fun data byte => data * 256 + byte) value =
      value * 256 ^ bytes.length + Bytes.bigEndian bytes := by
  induction bytes generalizing value with
  | nil => exact (Nat.mul_one value).symm
  | cons byte rest inductionHypothesis =>
    rw [List.map_cons, List.foldl_cons, inductionHypothesis, Bytes.bigEndian_cons, List.length_cons,
      Nat.pow_succ, Nat.add_mul, Nat.mul_assoc, Nat.mul_comm 256, Nat.add_assoc]

/-- The number that stands for a name in the model is that of the two words of its
`fixed_string`. -/
theorem accountName_data {str : Text} (fits : str.length ≤ 16) :
    (AccountName.ofBytes (str.map UInt8.toNat)).data =
      (FixedString.ofStdString str : FixedString Uint128Layout).data.hi.toNat * 2 ^ 64 +
        (FixedString.ofStdString str : FixedString Uint128Layout).data.lo.toNat := by
  have filled : (padded 16 str).length = 16 := length_padded fits
  have front : ((padded 16 str).take 8).length = 8 := by rw [List.length_take, filled]; rfl
  have back : ((padded 16 str).drop 8).length = 8 := by rw [List.length_drop, filled]
  have bytes : (str.map UInt8.toNat ++ List.replicate 16 0).take 16 =
      (padded 16 str).map UInt8.toNat := by
    rw [List.take_append, List.length_map, List.take_of_length_le (by simpa using fits),
      List.take_replicate, Nat.min_eq_left (Nat.sub_le 16 _), padded, List.map_append,
      List.map_replicate]
    rfl
  rw [AccountName.ofBytes, bytes, foldl_eq_bigEndian, ofStdString_eq (S := Uint128Layout) fits]
  change _ = (endianReverse (load ((padded 16 str).take 8) : UInt64)).toNat * 2 ^ 64 +
    (endianReverse (load ((padded 16 str).drop 8) : UInt64)).toNat
  rw [toNat_endianReverse_load front, toNat_endianReverse_load back, Nat.zero_mul, Nat.zero_add]
  have parts := Bytes.bigEndian_append ((padded 16 str).take 8) ((padded 16 str).drop 8)
  rw [List.take_append_drop, back] at parts
  exact parts

theorem accountName_data_a : (AccountName.ofBytes [97]).data =
    (FixedString.ofStdString [97] : FixedString Uint128Layout).data.hi.toNat * 2 ^ 64 +
      (FixedString.ofStdString [97] : FixedString Uint128Layout).data.lo.toNat :=
  @accountName_data [97] (by decide)

end Zattera
