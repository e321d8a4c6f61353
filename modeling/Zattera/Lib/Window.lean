/-
This file is a library on a window of bits that moves along numbered places. Each
new place shifts its bit in at the low end and the oldest bit out at the high end,
so that the window shows which of the last places are filled; the number of ones
in it can be kept as bits come and go.
-/

import Mathlib.Algebra.Order.Ring.Int

namespace Window

variable {width : Nat}

/-- The window after a new place. -/
def push (bits : BitVec width) (filled : Bool) : BitVec width :=
  bits <<< 1 + (if filled then 1 else 0)

/-- The number of ones. -/
def ones (bits : BitVec width) : Nat := (List.range width).countP bits.getLsbD

theorem push_eq_or (bits : BitVec width) (filled : Bool) :
    push bits filled = bits <<< 1 ||| (if filled then 1 else 0) := by
  refine BitVec.add_eq_or_of_and_eq_zero _ _ ?_
  cases filled with
  | false => simp
  | true =>
    ext i bound
    cases i <;> simp

theorem getLsbD_push_zero (bits : BitVec width) (filled : Bool) (some : 0 < width) :
    (push bits filled).getLsbD 0 = filled := by
  rw [push_eq_or]
  cases filled <;> simp [some]

theorem getLsbD_push_succ (bits : BitVec width) (filled : Bool) {i : Nat} (inside : i + 1 < width) :
    (push bits filled).getLsbD (i + 1) = bits.getLsbD i := by
  have known : bits.getLsbD i = bits[i] := BitVec.getLsbD_eq_getElem (Nat.lt_of_succ_lt inside)
  rw [push_eq_or, known]
  cases filled <;> simp [inside]

/-- The count of ones loses the bit shifted out and gains the one shifted in. -/
theorem ones_push (bits : BitVec (width + 1)) (filled : Bool) :
    ones (push bits filled) = ones bits - bits.msb.toNat + filled.toNat := by
  have shifted : (List.range width).countP ((push bits filled).getLsbD ∘ Nat.succ) =
      (List.range width).countP bits.getLsbD := by
    refine List.countP_congr fun i member => ?_
    have inside : i + 1 < width + 1 := Nat.succ_lt_succ (List.mem_range.mp member)
    rw [Function.comp_apply, getLsbD_push_succ bits filled inside]
  have after : ones (push bits filled) =
      (List.range width).countP bits.getLsbD + filled.toNat := by
    unfold ones
    rw [List.range_succ_eq_map, List.countP_cons, List.countP_map, shifted,
      getLsbD_push_zero bits filled (Nat.succ_pos width)]
    cases filled <;> rfl
  have before : ones bits = (List.range width).countP bits.getLsbD + bits.msb.toNat := by
    unfold ones
    rw [List.range_succ, List.countP_append, List.countP_singleton, BitVec.msb_eq_getLsbD_last,
      Nat.add_sub_cancel]
    cases bits.getLsbD width <;> rfl
  rw [after, before, Nat.add_sub_cancel]

/-- The bits of the window are the places up to the last one, the last one first. -/
def Shows (bits : BitVec width) (filled : Int → Prop) (last : Int) : Prop :=
  ∀ i < width, bits.getLsbD i = true ↔ filled (last - i)

section Shows

variable {bits : BitVec width} {filled : Int → Prop} {last : Int}

theorem Shows.push {bit : Bool} (shown : Shows bits filled last)
    (isBit : bit = true ↔ filled (last + 1)) : Shows (push bits bit) filled (last + 1) := by
  intro i inside
  cases i with
  | zero =>
    rw [getLsbD_push_zero bits bit inside, isBit, Nat.cast_zero, sub_zero]
  | succ i =>
    rw [getLsbD_push_succ bits bit inside, shown i (Nat.lt_of_succ_lt inside), Nat.cast_succ,
      add_sub_add_right_eq_sub]

theorem Shows.congr {other : Int → Prop} (shown : Shows bits filled last)
    (same : ∀ place ≤ last, filled place ↔ other place) : Shows bits other last := by
  intro i inside
  rw [shown i inside]
  exact same _ (Int.sub_le_self _ (Int.natCast_nonneg i))

theorem Shows.ones_eq [DecidablePred filled] (shown : Shows bits filled last) :
    ones bits = (List.range width).countP fun i => decide (filled (last - (i : Nat))) := by
  refine List.countP_congr fun i member => ?_
  rw [shown i (List.mem_range.mp member), decide_eq_true_iff]

end Shows

end Window
