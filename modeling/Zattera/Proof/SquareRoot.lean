/-
This file is about the square root that rewards are computed with. Halving the
exponent of a number and taking half of the leading bits of its mantissa, with the
odd bit of the exponent in front, is one step of Newton's method from the power of
two that is nearest to the root. So the result is not below the root, above it by a
sixteenth at most, and grows with the number.
-/

import Mathlib.Data.Nat.Log
import Zattera.Chain.Rewards
import Zattera.Lib.Root

namespace Zattera

/-! ### The bits of the result -/

/-- The power of two a square root is approximated from: half the exponent, rounded up. -/
def rootGuess (number : Nat) : Nat := 2 ^ ((number.log2 + 1) / 2)

theorem rootGuess_pos (number : Nat) : 0 < rootGuess number := Nat.two_pow_pos _

theorem rootGuess_mono {less number : Nat} (le : less ≤ number) :
    rootGuess less ≤ rootGuess number := by
  refine Nat.pow_le_pow_right two_pos (Nat.div_le_div_right (Nat.add_le_add_right ?_ 1))
  rw [Nat.log2_eq_log_two, Nat.log2_eq_log_two]
  exact Nat.log_mono_right le

/-- A larger guess is at least twice as large. -/
theorem rootGuess_eq_or_double {less number : Nat} (le : rootGuess less ≤ rootGuess number) :
    rootGuess less = rootGuess number ∨ 2 * rootGuess less ≤ rootGuess number := by
  unfold rootGuess at le ⊢
  rcases Nat.eq_or_lt_of_le ((Nat.pow_le_pow_iff_right one_lt_two).mp le) with same | higher
  · exact .inl (congrArg (2 ^ ·) same)
  · rw [← pow_succ']
    exact .inr (Nat.pow_le_pow_right two_pos higher)

/-- The square of the guess is within a factor of two. -/
theorem rootGuess_near {number : Nat} (nonzero : number ≠ 0) :
    rootGuess number * rootGuess number ≤ 2 * number ∧
      number ≤ 2 * (rootGuess number * rootGuess number) := by
  have low : 2 ^ number.log2 ≤ number := Nat.log2_self_le nonzero
  have high : number < 2 ^ (number.log2 + 1) := Nat.lt_log2_self
  have square : rootGuess number * rootGuess number = 2 ^ (2 * ((number.log2 + 1) / 2)) := by
    rw [rootGuess, ← pow_add, two_mul]
  rw [square]
  constructor
  · calc 2 ^ (2 * ((number.log2 + 1) / 2)) ≤ 2 ^ (number.log2 + 1) :=
          Nat.pow_le_pow_right two_pos (by omega)
      _ = 2 * 2 ^ number.log2 := pow_succ' 2 _
      _ ≤ 2 * number := Nat.mul_le_mul_left 2 low
  · calc number ≤ 2 ^ (number.log2 + 1) := high.le
      _ ≤ 2 ^ (2 * ((number.log2 + 1) / 2) + 1) := Nat.pow_le_pow_right two_pos (by omega)
      _ = 2 * 2 ^ (2 * ((number.log2 + 1) / 2)) := pow_succ' 2 _

theorem two_pow_or {exponent low : Nat} (small : low < 2 ^ exponent) :
    2 ^ exponent ||| low = 2 ^ exponent + low := by
  have disjoint := Nat.two_pow_add_eq_or_of_lt small 1
  rw [mul_one] at disjoint
  exact disjoint.symm

/-- The bits of the result are those of a sum. -/
theorem approxSqrt_eq_add {x : UInt128} {exponent half mantissa : Nat}
    (isSum : x.toNat = 2 ^ exponent + mantissa) (small : mantissa < 2 ^ exponent)
    (isHalf : half = exponent / 2) :
    approxSqrt x =
      2 ^ half + ((if exponent % 2 = 1 then 2 ^ half else 0) + mantissa / 2 ^ (exponent - half)) / 2 := by
  have positive : 0 < x.toNat := isSum ▸ Nat.add_pos_left (Nat.two_pow_pos _) _
  have nonzero : x ≠ 0 := by
    rintro rfl
    exact lt_irrefl _ positive
  have place : findMsb x = exponent := by
    refine (Nat.log2_eq_iff positive.ne').mpr ?_
    rw [isSum, pow_succ]
    omega
  have short : exponent < 128 := (Nat.pow_lt_pow_iff_right one_lt_two).mp
    (lt_of_le_of_lt (Nat.le_add_right _ mantissa) (isSum ▸ x.isLt))
  have rest : x.toNat % 2 ^ exponent = mantissa := by
    rw [isSum, Nat.add_mod_left, Nat.mod_eq_of_lt small]
  have lead : mantissa / 2 ^ (exponent - half) < 2 ^ half := by
    rw [Nat.div_lt_iff_lt_mul (Nat.two_pow_pos _), ← pow_add]
    exact small.trans_le (Nat.pow_le_pow_right two_pos (by omega))
  have fits : 2 ^ half ≤ 18446744073709551616 :=
    Nat.pow_le_pow_right two_pos (show half ≤ 64 by omega)
  have merged : ((if exponent % 2 = 1 then 2 ^ half else 0) ||| mantissa / 2 ^ (exponent - half)) =
      (if exponent % 2 = 1 then 2 ^ half else 0) + mantissa / 2 ^ (exponent - half) := by
    split
    · exact two_pow_or lead
    · rw [Nat.zero_or, Nat.zero_add]
  simp only [approxSqrt, if_neg nonzero, place, ← isHalf, rest,
    Nat.mod_eq_of_lt (lead.trans_le fits), merged]
  refine two_pow_or ?_
  generalize mantissa / 2 ^ (exponent - half) = leading at lead ⊢
  split <;> omega

/-- The result is one step of Newton's method. -/
theorem approxSqrt_eq_step {x : UInt128} (nonzero : x ≠ 0) :
    approxSqrt x = Root.step (rootGuess x.toNat) x.toNat := by
  have positive : x.toNat ≠ 0 := fun zero => nonzero (BitVec.eq_of_toNat_eq zero)
  have low : 2 ^ x.toNat.log2 ≤ x.toNat := Nat.log2_self_le positive
  have high : x.toNat < 2 ^ (x.toNat.log2 + 1) := Nat.lt_log2_self
  obtain ⟨mantissa, isSum⟩ := Nat.exists_eq_add_of_le low
  have small : mantissa < 2 ^ x.toNat.log2 := by
    rw [pow_succ] at high
    omega
  rw [approxSqrt_eq_add isSum small rfl, Root.step, rootGuess]
  generalize x.toNat.log2 = exponent at isSum small ⊢
  rw [isSum]
  rcases Nat.even_or_odd' exponent with ⟨half, rfl | rfl⟩
  · have isHalf : 2 * half / 2 = half := by omega
    have isHalf' : (2 * half + 1) / 2 = half := by omega
    have isRest : 2 * half - half = half := by omega
    have even : ¬ 2 * half % 2 = 1 := by omega
    rw [isHalf, isHalf', isRest, if_neg even, two_mul half, pow_add]
    have positive := Nat.two_pow_pos half
    generalize 2 ^ half = power at positive ⊢
    calc power + (0 + mantissa / power) / 2 = mantissa / (2 * power) + power := by
          rw [Nat.zero_add, Nat.div_div_eq_div_mul, mul_comm power 2, add_comm]
      _ = (mantissa + power * (2 * power)) / (2 * power) :=
          (Nat.add_mul_div_right _ _ (by omega)).symm
      _ = (power * power + (power * power + mantissa)) / (2 * power) := by
          congr 1
          ring
  · have isHalf : (2 * half + 1) / 2 = half := by omega
    have isHalf' : (2 * half + 1 + 1) / 2 = half + 1 := by omega
    have isRest : 2 * half + 1 - half = half + 1 := by omega
    have odd : (2 * half + 1) % 2 = 1 := by omega
    have isPower : 2 ^ (2 * half + 1) = 2 * (2 ^ half * 2 ^ half) := by ring
    rw [isHalf, isHalf', isRest, if_pos odd, isPower, pow_succ']
    have positive := Nat.two_pow_pos half
    generalize 2 ^ half = power at positive ⊢
    calc power + (power + mantissa / (2 * power)) / 2
        = power + (mantissa + power * (2 * power)) / (2 * power) / 2 := by
          rw [Nat.add_mul_div_right _ _ (by omega : 0 < 2 * power), add_comm (mantissa / _)]
      _ = (mantissa + power * (2 * power)) / (2 * (2 * power)) + power := by
          rw [Nat.div_div_eq_div_mul, mul_comm (2 * power) 2, add_comm]
      _ = (mantissa + power * (2 * power) + power * (2 * (2 * power))) / (2 * (2 * power)) :=
          (Nat.add_mul_div_right _ _ (by omega)).symm
      _ = (2 * power * (2 * power) + (2 * (power * power) + mantissa)) / (2 * (2 * power)) := by
          congr 1
          ring

/-! ### The root of a larger number -/

/-- The root grows with the number, is not below the true one, and above it by three over the root of
eight at most. -/
theorem approxSqrt_close :
    (∀ x y : UInt128, x ≤ y → approxSqrt x ≤ approxSqrt y) ∧
      ∀ x : UInt128, x.toNat.sqrt ≤ approxSqrt x ∧ 8 * (approxSqrt x) ^ 2 ≤ 9 * x.toNat := by
  refine ⟨fun x y le => ?_, fun x => ?_⟩
  · by_cases zero : x = 0
    · rw [zero]
      exact Nat.zero_le _
    have le : x.toNat ≤ y.toNat := le
    have positive : x.toNat ≠ 0 := fun isZero => zero (BitVec.eq_of_toNat_eq isZero)
    have positive' : y.toNat ≠ 0 := by omega
    have nonzero : y ≠ 0 := fun isZero => positive' (congrArg BitVec.toNat isZero)
    rw [approxSqrt_eq_step zero, approxSqrt_eq_step nonzero]
    rcases rootGuess_eq_or_double (rootGuess_mono le) with same | doubled
    · rw [same]
      exact Root.step_mono le
    · exact Root.step_le_step (rootGuess_pos _) doubled (rootGuess_near positive).2
        (rootGuess_near positive').1
  · by_cases zero : x = 0
    · subst zero
      decide
    have positive : x.toNat ≠ 0 := fun isZero => zero (BitVec.eq_of_toNat_eq isZero)
    obtain ⟨high, low⟩ := rootGuess_near positive
    rw [approxSqrt_eq_step zero]
    exact ⟨Root.sqrt_le_step (rootGuess_pos _), Root.step_sq_le (rootGuess_pos _) high low⟩

/-- At the largest numbers, where the exponent is odd. -/
theorem approxSqrt_largest :
    approxSqrt 340282366920938463463374607431768211454 ≤
      approxSqrt 340282366920938463463374607431768211455 :=
  approxSqrt_close.1 _ _ (by decide)

end Zattera
