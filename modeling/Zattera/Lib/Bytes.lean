/-
This file collects what there is to say about numbers and values as bytes. A
number is written in a fixed width, least significant byte first; a value is
written by a codec, which reads back what it has written whatever follows.
-/

import Mathlib.Algebra.Order.Ring.Nat

namespace Bytes

/-! ### Numbers -/

/-- The lowest bytes of a number, least significant first. -/
def encode : Nat → Nat → List UInt8
  | 0, _ => []
  | width + 1, value => UInt8.ofNat value :: encode width (value / 256)

/-- The number that bytes stand for. -/
def decode : List UInt8 → Nat
  | [] => 0
  | byte :: rest => byte.toNat + 256 * decode rest

@[simp]
theorem length_encode (width value : Nat) : (encode width value).length = width := by
  induction width generalizing value with
  | zero => rfl
  | succ width inductionHypothesis => rw [encode, List.length_cons, inductionHypothesis]

/-- A number that fits is read back. -/
theorem decode_encode {width value : Nat} (fits : value < 256 ^ width) :
    decode (encode width value) = value := by
  induction width generalizing value with
  | zero =>
    rw [Nat.pow_zero, Nat.lt_one_iff] at fits
    rw [fits]
    rfl
  | succ width inductionHypothesis =>
    rw [Nat.pow_succ, Nat.mul_comm] at fits
    rw [encode, decode, inductionHypothesis (Nat.div_lt_of_lt_mul fits), UInt8.toNat_ofNat']
    exact Nat.mod_add_div value 256

/-- Bytes are the encoding of the number they stand for. -/
theorem encode_decode (bytes : List UInt8) : encode bytes.length (decode bytes) = bytes := by
  induction bytes with
  | nil => rfl
  | cons byte rest inductionHypothesis =>
    have low : UInt8.ofNat (byte.toNat + 256 * decode rest) = byte := by
      rw [← UInt8.toNat_inj, UInt8.toNat_ofNat', Nat.add_mul_mod_self_left]
      exact Nat.mod_eq_of_lt byte.toNat_lt
    have high : (byte.toNat + 256 * decode rest) / 256 = decode rest := by
      rw [Nat.add_mul_div_left _ _ (by decide), Nat.div_eq_of_lt byte.toNat_lt, Nat.zero_add]
    rw [List.length_cons, encode, decode, low, high, inductionHypothesis]

theorem decode_append (first second : List UInt8) :
    decode (first ++ second) = decode first + 256 ^ first.length * decode second := by
  induction first with
  | nil => simp [decode]
  | cons byte rest inductionHypothesis =>
    rw [List.cons_append, decode, decode, inductionHypothesis, List.length_cons, Nat.pow_succ,
      Nat.mul_add, Nat.mul_comm (256 ^ _) 256, Nat.mul_assoc, Nat.add_assoc]

theorem decode_lt (bytes : List UInt8) : decode bytes < 256 ^ bytes.length := by
  induction bytes with
  | nil => exact Nat.one_pos
  | cons byte rest inductionHypothesis =>
    have small := byte.toNat_lt
    rw [decode, List.length_cons, Nat.pow_succ]
    omega

/-- The number that bytes stand for when the most significant comes first. -/
def bigEndian (bytes : List UInt8) : Nat := decode bytes.reverse

theorem bigEndian_append (first second : List UInt8) :
    bigEndian (first ++ second) = bigEndian first * 256 ^ second.length + bigEndian second := by
  rw [bigEndian, List.reverse_append, decode_append, List.length_reverse, Nat.mul_comm,
    Nat.add_comm]
  rfl

theorem bigEndian_cons (byte : UInt8) (rest : List UInt8) :
    bigEndian (byte :: rest) = byte.toNat * 256 ^ rest.length + bigEndian rest :=
  bigEndian_append [byte] rest

theorem bigEndian_lt (bytes : List UInt8) : bigEndian bytes < 256 ^ bytes.length := by
  rw [← List.length_reverse]
  exact decode_lt bytes.reverse

/-- Numbers whose most significant byte comes first compare as their bytes do. -/
theorem bigEndian_lt_iff {first second : List UInt8} (same : first.length = second.length) :
    bigEndian first < bigEndian second ↔ first < second := by
  induction first generalizing second with
  | nil =>
    rw [List.eq_nil_of_length_eq_zero same.symm]
    simp
  | cons byte rest inductionHypothesis =>
    obtain ⟨other, others, rfl⟩ := List.exists_cons_of_length_eq_add_one same.symm
    rw [List.length_cons, List.length_cons, Nat.add_right_cancel_iff] at same
    have small := bigEndian_lt rest
    have fits := bigEndian_lt others
    rw [List.cons_lt_cons_iff, ← inductionHypothesis same, bigEndian_cons, bigEndian_cons,
      ← UInt8.toNat_inj, UInt8.lt_iff_toNat_lt, ← same]
    rw [← same] at fits
    rcases Nat.lt_trichotomy byte.toNat other.toNat with lower | equal | higher
    · have step := Nat.mul_le_mul_right (256 ^ rest.length) (Nat.succ_le_of_lt lower)
      rw [Nat.succ_mul] at step
      omega
    · rw [equal]
      omega
    · have step := Nat.mul_le_mul_right (256 ^ rest.length) (Nat.succ_le_of_lt higher)
      rw [Nat.succ_mul] at step
      omega

/-! ### Pieces of a file -/

/-- The bytes at a position; nothing where the file ends before the last of them. -/
def slice? (file : List UInt8) (position count : Nat) : Option (List UInt8) :=
  if position + count ≤ file.length then some ((file.drop position).take count) else none

theorem slice?_append {before piece after : List UInt8} {position count : Nat}
    (starts : before.length = position) (ends : piece.length = count) :
    slice? (before ++ (piece ++ after)) position count = some piece := by
  subst starts ends
  unfold slice?
  rw [if_pos, List.drop_left, List.take_left]
  simp only [List.length_append]
  omega

/-! ### Values -/

/-- A way to write values and to read them back. -/
structure Codec (Value : Type) where
  pack : Value → List UInt8
  unpack : List UInt8 → Option (Value × List UInt8)
  unpack_pack : ∀ value rest, unpack (pack value ++ rest) = some (value, rest)

/-- Numbers of 32 bits, in four bytes. -/
def Codec.uint32 : Codec UInt32 where
  pack value := encode 4 value.toNat
  unpack bytes := (slice? bytes 0 4).map fun piece => (UInt32.ofNat (decode piece), bytes.drop 4)
  unpack_pack value rest := by
    have read : slice? (encode 4 value.toNat ++ rest) 0 4 = some (encode 4 value.toNat) :=
      @slice?_append [] _ rest 0 4 rfl (length_encode 4 _)
    rw [read, Option.map_some, decode_encode value.toNat_lt, UInt32.ofNat_toNat]
    congr 2

end Bytes
