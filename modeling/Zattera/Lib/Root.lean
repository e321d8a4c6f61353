/-
This file is a library on the first step of Newton's method towards a square root:
from a guess to the mean of the guess and the quotient by it, rounded down. One step
never falls below the root, and from a guess whose square is within a factor of two
it is above by a factor of at most three over the root of eight. It grows with the
number, and also from one power of two to the next when those are the guesses.
-/

import Mathlib.Tactic.Linarith
import Mathlib.Tactic.Ring

namespace Root

/-- The mean of a guess and of the quotient by it. -/
def step (guess number : ℕ) : ℕ := (guess * guess + number) / (2 * guess)

variable {guess number : ℕ}

theorem step_mono {less : ℕ} (le : less ≤ number) : step guess less ≤ step guess number :=
  Nat.div_le_div_right (Nat.add_le_add_left le _)

/-- The mean is not below the root, whatever the guess. -/
theorem sqrt_le_step (positive : 0 < guess) : number.sqrt ≤ step guess number := by
  rw [step, Nat.le_div_iff_mul_le (Nat.mul_pos two_pos positive)]
  have below : number.sqrt * number.sqrt ≤ number := Nat.sqrt_le number
  calc number.sqrt * (2 * guess) = 2 * number.sqrt * guess := by ring
    _ ≤ number.sqrt ^ 2 + guess ^ 2 := two_mul_le_add_sq number.sqrt guess
    _ ≤ guess * guess + number := by linarith [sq number.sqrt, sq guess]

/-- From a guess that is off by a factor of at most the root of two. -/
theorem step_sq_le (positive : 0 < guess) (high : guess * guess ≤ 2 * number)
    (low : number ≤ 2 * (guess * guess)) : 8 * (step guess number) ^ 2 ≤ 9 * number := by
  have scaled : step guess number * (2 * guess) ≤ guess * guess + number :=
    Nat.div_mul_le_self _ _
  have square : (step guess number * (2 * guess)) ^ 2 ≤ (guess * guess + number) ^ 2 :=
    Nat.pow_le_pow_left scaled 2
  -- the two roots of the quadratic are the ends of the range
  have inside : 2 * (guess * guess + number) ^ 2 ≤ 9 * number * (guess * guess) := by
    zify at high low ⊢
    nlinarith [mul_nonneg (sub_nonneg.mpr high) (sub_nonneg.mpr low)]
  refine Nat.le_of_mul_le_mul_right ?_ (Nat.mul_pos positive positive)
  calc 8 * step guess number ^ 2 * (guess * guess)
      = 2 * (step guess number * (2 * guess)) ^ 2 := by ring
    _ ≤ 2 * (guess * guess + number) ^ 2 := Nat.mul_le_mul_left 2 square
    _ ≤ 9 * number * (guess * guess) := inside

/-- A number in the range of one guess is not passed by one in the range of half the guess. -/
theorem step_le_step {later more : ℕ} (positive : 0 < guess) (doubled : 2 * guess ≤ later)
    (low : number ≤ 2 * (guess * guess)) (high : later * later ≤ 2 * more) :
    step guess number ≤ step later more := by
  have laterPositive : 0 < later := by omega
  rw [step, step, Nat.le_div_iff_mul_le (Nat.mul_pos two_pos laterPositive)]
  have scaled : (guess * guess + number) / (2 * guess) * (2 * guess) ≤ guess * guess + number :=
    Nat.div_mul_le_self _ _
  generalize (guess * guess + number) / (2 * guess) = root at scaled ⊢
  have bounded : 2 * root ≤ 3 * guess := by
    refine Nat.le_of_mul_le_mul_right ?_ positive
    nlinarith
  nlinarith

end Root
