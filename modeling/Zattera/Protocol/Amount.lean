/-
This file models the number types amounts are computed with. A `share_type` is a
64-bit integer whose operators stop on overflow instead of wrapping; products
that do not fit are formed in `uint128`, which wraps, and come back through an
unchecked conversion from `uint64`. Every checked operator is characterised by
one equivalence: it returns a value exactly when that value is the true result.
-/

import Mathlib.Data.Int.Basic
import Zattera.Lib.Program

namespace Zattera

open Program

/-! ### Errors -/

/-- The exceptions the modelled code throws. An assertion keeps its message. -/
inductive ChainError where
  | assertion (message : String)
  | overflow
  | underflow
  | divideByZero
  /-- A lookup of an object that is not in its index. -/
  | unknownKey
  /-- Insertion of an object whose key is taken. -/
  | uniqueness
  | txMissingActiveAuth
  | txMissingOwnerAuth
  | txMissingPostingAuth
  | txMissingOtherAuth
  | txIrrelevantSig
  | txDuplicateSig
  | unlinkableBlock
  /-- A loop of the model went past its bound; the loops that can say so never do. -/
  | diverges
  deriving DecidableEq, Repr

/-! ### `share_type` -/

/-- `share_type` is `safe<int64_t>`. -/
abbrev ShareType := Int64

namespace ShareType

/-- The result of a checked operator: the exact value, or an exception when it does not fit. -/
def checked (exact : Int) : Except ChainError ShareType :=
  if 9223372036854775807 < exact then .error .overflow
  else if exact < -9223372036854775808 then .error .underflow
  else .ok (Int64.ofInt exact)

theorem checked_eq_ok {exact : Int} {result : ShareType} :
    checked exact = .ok result ↔ result.toInt = exact := by
  have upper := result.toInt_lt
  have lower := result.le_toInt
  unfold checked
  split
  · constructor
    · intro impossible
      cases impossible
    · intro equal
      omega
  · split
    · constructor
      · intro impossible
        cases impossible
      · intro equal
        omega
    · rw [Except.ok.injEq, ← Int64.toInt_inj, Int64.toInt_ofInt_of_le (by omega) (by omega)]
      exact eq_comm

/-- A checked operator finishes exactly when the true result fits. -/
theorem exists_checked_eq_ok {exact : Int} :
    (∃ result, checked exact = .ok result) ↔
      -9223372036854775808 ≤ exact ∧ exact ≤ 9223372036854775807 := by
  constructor
  · rintro ⟨result, finished⟩
    rw [checked_eq_ok] at finished
    have upper := result.toInt_lt
    have lower := result.le_toInt
    omega
  · rintro ⟨lower, upper⟩
    exact ⟨Int64.ofInt exact, checked_eq_ok.mpr (Int64.toInt_ofInt_of_le (by omega) (by omega))⟩

/-- `operator +` -/
def add (a b : ShareType) : Except ChainError ShareType := checked (a.toInt + b.toInt)

/-- `operator -` -/
def sub (a b : ShareType) : Except ChainError ShareType := checked (a.toInt - b.toInt)

/-- `operator *` -/
def mul (a b : ShareType) : Except ChainError ShareType := checked (a.toInt * b.toInt)

/-- Unary `operator -` -/
def neg (a : ShareType) : Except ChainError ShareType := checked (-a.toInt)

/-- `operator /`, which truncates towards zero -/
def div (a b : ShareType) : Except ChainError ShareType :=
  if b = 0 then .error .divideByZero else checked (a.toInt.tdiv b.toInt)

/-- `operator %`, with the sign of the dividend -/
def mod (a b : ShareType) : Except ChainError ShareType :=
  if b = 0 then .error .divideByZero
  else if a = Int64.minValue ∧ b = -1 then .error .overflow
  else checked (a.toInt.tmod b.toInt)

@[simp]
theorem add_eq_ok {a b c : ShareType} : add a b = .ok c ↔ c.toInt = a.toInt + b.toInt :=
  checked_eq_ok

@[simp]
theorem sub_eq_ok {a b c : ShareType} : sub a b = .ok c ↔ c.toInt = a.toInt - b.toInt :=
  checked_eq_ok

@[simp]
theorem mul_eq_ok {a b c : ShareType} : mul a b = .ok c ↔ c.toInt = a.toInt * b.toInt :=
  checked_eq_ok

@[simp]
theorem neg_eq_ok {a b : ShareType} : neg a = .ok b ↔ b.toInt = -a.toInt :=
  checked_eq_ok

@[simp]
theorem div_eq_ok {a b c : ShareType} :
    div a b = .ok c ↔ b ≠ 0 ∧ c.toInt = a.toInt.tdiv b.toInt := by
  unfold div
  split
  · next zero => simp [zero]
  · next nonzero => simp [nonzero, checked_eq_ok]

end ShareType

/-! ### `uint128` -/

/-- A 128-bit unsigned integer; its operators wrap. -/
abbrev UInt128 := BitVec 128

namespace UInt128

/-- `uint128( int64_t )` extends the sign. -/
def ofInt64 (value : Int64) : UInt128 := BitVec.ofInt 128 value.toInt

/-- `to_uint64`, followed by the unchecked conversion to `share_type`. -/
def toShareType (value : UInt128) : Except ChainError ShareType :=
  if value.toNat < 18446744073709551616 then .ok (Int64.ofNat value.toNat)
  else .error (.assertion "hi == 0")

/-- `operator /`; the source divides only by values it has checked or by constants. -/
def div (a b : UInt128) : Except ChainError UInt128 :=
  if b = 0 then .error .divideByZero else .ok (a / b)

theorem toNat_ofInt64_of_nonneg {value : Int64} (nonneg : 0 ≤ value.toInt) :
    (ofInt64 value).toNat = value.toInt.toNat := by
  have upper := value.toInt_lt
  unfold ofInt64
  rw [BitVec.toNat_ofInt]
  congr 1
  exact Int.emod_eq_of_lt nonneg (by omega)

theorem toNat_ofInt64_of_neg {value : Int64} (neg : value.toInt < 0) :
    ((ofInt64 value).toNat : Int) = value.toInt + 340282366920938463463374607431768211456 := by
  have lower := value.le_toInt
  unfold ofInt64
  rw [BitVec.toNat_ofInt, Int.toNat_of_nonneg (Int.emod_nonneg _ (by decide))]
  change value.toInt % 340282366920938463463374607431768211456 = _
  omega

/-- A product of a non-negative amount and a small number does not wrap. -/
theorem toNat_ofInt64_mul {value : Int64} (nonneg : 0 ≤ value.toInt) {factor : Nat}
    (small : factor < 18446744073709551616) :
    (ofInt64 value * BitVec.ofNat 128 factor).toNat = value.toInt.toNat * factor := by
  have upper := value.toInt_lt
  have factorSmall : factor % 2 ^ 128 = factor := Nat.mod_eq_of_lt (by omega)
  rw [BitVec.toNat_mul, toNat_ofInt64_of_nonneg nonneg, BitVec.toNat_ofNat, factorSmall]
  refine Nat.mod_eq_of_lt ?_
  calc value.toInt.toNat * factor ≤ 9223372036854775808 * 18446744073709551616 :=
        Nat.mul_le_mul (by omega) (by omega)
    _ < 2 ^ 128 := by decide

theorem toNat_ofInt64_mul_ofInt64 {first second : Int64} (nonneg : 0 ≤ first.toInt)
    (nonneg' : 0 ≤ second.toInt) :
    (ofInt64 first * ofInt64 second).toNat = first.toInt.toNat * second.toInt.toNat := by
  have upper := second.toInt_lt
  have same : ofInt64 second = BitVec.ofNat 128 second.toInt.toNat := by
    rw [← BitVec.toNat_inj, toNat_ofInt64_of_nonneg nonneg', BitVec.toNat_ofNat]
    exact (Nat.mod_eq_of_lt (by omega)).symm
  rw [same, toNat_ofInt64_mul nonneg (by omega)]

theorem toShareType_eq_ok {value : UInt128} {result : ShareType} :
    toShareType value = .ok result ↔
      value.toNat < 18446744073709551616 ∧ result = Int64.ofNat value.toNat := by
  unfold toShareType
  split
  · next small => simp [small, eq_comm]
  · next large => simp [large]

end UInt128

end Zattera
