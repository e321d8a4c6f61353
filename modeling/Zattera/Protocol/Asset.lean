/-
This file models assets and prices. An asset is an amount of one of the three
tokens: the liquid token (ZTR), the dollar token (ZBD) and vesting shares
(VESTS). A price is a pair of assets; multiplying an asset by a price converts
it from one side of the pair to the other, rounding down in 128-bit arithmetic.
-/

import Zattera.Protocol.Amount

namespace Zattera

open Program

/-! ### Symbols -/

/-- `asset_symbol_type`; a symbol outside these three does not deserialise. -/
inductive AssetSymbol where
  | liquid
  | dollar
  | vests
  deriving DecidableEq, Repr

namespace AssetSymbol

theorem liquid_ne_vests : liquid ≠ vests := by decide

/-- `asset_num`, by which symbols are ordered. -/
def assetNum : AssetSymbol → Nat
  | .dollar => 1600000003
  | .liquid => 1600000019
  | .vests => 1600000038

theorem assetNum_injective {a b : AssetSymbol} (same : a.assetNum = b.assetNum) : a = b := by
  cases a <;> cases b <;> first | rfl | exact absurd same (by decide)

end AssetSymbol

/-! ### Assets -/

structure Asset where
  amount : ShareType
  symbol : AssetSymbol
  deriving DecidableEq, Repr

namespace Asset

/-- The default constructor: nothing, in the liquid token. -/
instance : Inhabited Asset := ⟨⟨0, .liquid⟩⟩

/-- The assertion every operator on two assets starts with. -/
def sameSymbol (a b : Asset) : Except ChainError Unit :=
  ensure (a.symbol = b.symbol) (.assertion "a.symbol == b.symbol")

/-- `operator <` -/
def lt (a b : Asset) : Except ChainError Bool := do
  sameSymbol a b
  return decide (a.amount < b.amount)

/-- `operator +` -/
def add (a b : Asset) : Except ChainError Asset := do
  sameSymbol a b
  let amount ← a.amount.add b.amount
  return ⟨amount, a.symbol⟩

/-- `operator -` -/
def sub (a b : Asset) : Except ChainError Asset := do
  sameSymbol a b
  let amount ← a.amount.sub b.amount
  return ⟨amount, a.symbol⟩

/-- Unary `operator -` -/
def neg (a : Asset) : Except ChainError Asset := do
  let amount ← a.amount.neg
  return ⟨amount, a.symbol⟩

end Asset

/-! ### Prices -/

/-- `price`; only `Price.make` validates, as in the source. -/
structure Price where
  base : Asset
  quote : Asset
  deriving DecidableEq, Repr

namespace Price

/-- The default constructor, which is the null price. -/
instance : Inhabited Price := ⟨⟨default, default⟩⟩

/-- `price::validate` -/
def validate (price : Price) : Except ChainError Unit := do
  ensure (0 < price.base.amount) (.assertion "base.amount > share_type(0)")
  ensure (0 < price.quote.amount) (.assertion "quote.amount > share_type(0)")
  ensure (price.base.symbol ≠ price.quote.symbol) (.assertion "base.symbol != quote.symbol")

/-- The validating constructor `price( base, quote )`. -/
def make (base quote : Asset) : Except ChainError Price := do
  let price : Price := ⟨base, quote⟩
  price.validate
  return price

/-- `operator /` on assets -/
def ofAssets (base quote : Asset) : Except ChainError Price := do
  ensure (base.symbol ≠ quote.symbol) (.assertion "base.symbol != quote.symbol")
  make base quote

/-- The pair of symbols two prices are first compared by. -/
def symbols (price : Price) : Nat × Nat := (price.base.symbol.assetNum, price.quote.symbol.assetNum)

/-- The cross products two prices of one pair are compared by. -/
def crossProducts (a b : Price) : UInt128 × UInt128 :=
  (UInt128.ofInt64 b.quote.amount * UInt128.ofInt64 a.base.amount,
    UInt128.ofInt64 a.quote.amount * UInt128.ofInt64 b.base.amount)

/-- `operator <` -/
def lt (a b : Price) : Bool :=
  if a.symbols ≠ b.symbols then
    decide (a.symbols.1 < b.symbols.1 ∨ a.symbols.1 = b.symbols.1 ∧ a.symbols.2 < b.symbols.2)
  else decide ((crossProducts a b).1 < (crossProducts a b).2)

/-- `operator <=` -/
def le (a b : Price) : Bool :=
  if a.symbols ≠ b.symbols then
    decide (a.symbols.1 < b.symbols.1 ∨ a.symbols.1 = b.symbols.1 ∧ a.symbols.2 ≤ b.symbols.2)
  else decide ((crossProducts a b).1 ≤ (crossProducts a b).2)

/-- `operator ==`, which compares cross products and not fields. -/
def beq (a b : Price) : Bool :=
  if a.symbols ≠ b.symbols then false
  else decide ((crossProducts a b).1 = (crossProducts a b).2)

/-- `operator !=` -/
def ne (a b : Price) : Bool :=
  if a.symbols ≠ b.symbols then true
  else decide ((crossProducts a b).1 ≠ (crossProducts a b).2)

/-- `operator >` -/
def gt (a b : Price) : Bool :=
  if a.symbols ≠ b.symbols then
    decide (b.symbols.1 < a.symbols.1 ∨ b.symbols.1 = a.symbols.1 ∧ b.symbols.2 < a.symbols.2)
  else decide ((crossProducts a b).2 < (crossProducts a b).1)

/-- `operator >=` -/
def ge (a b : Price) : Bool :=
  if a.symbols ≠ b.symbols then
    decide (b.symbols.1 < a.symbols.1 ∨ b.symbols.1 = a.symbols.1 ∧ b.symbols.2 ≤ a.symbols.2)
  else decide ((crossProducts a b).2 ≤ (crossProducts a b).1)

/-- `operator ~`, whose result is built by the validating constructor. -/
def invert (price : Price) : Except ChainError Price := make price.quote price.base

/-- `price::is_null` -/
def isNull (price : Price) : Bool := price.beq default

theorem validate_eq_ok {price : Price} :
    price.validate = .ok () ↔
      0 < price.base.amount ∧ 0 < price.quote.amount ∧ price.base.symbol ≠ price.quote.symbol := by
  simp only [validate, except_bind_eq_ok, ensure_eq_ok]
  simp

theorem make_eq_ok {base quote : Asset} {price : Price} :
    make base quote = .ok price ↔
      price = ⟨base, quote⟩ ∧ 0 < base.amount ∧ 0 < quote.amount ∧ base.symbol ≠ quote.symbol := by
  simp only [make, except_bind_eq_ok, except_pure_eq_ok]
  constructor
  · rintro ⟨_, valid, rfl⟩
    exact ⟨rfl, validate_eq_ok.mp valid⟩
  · rintro ⟨rfl, valid⟩
    exact ⟨(), validate_eq_ok.mpr valid, rfl⟩

end Price

namespace Asset

/-- The conversion shared by both directions of `operator *`: `amount * target / source`, where
`source` is the side of the price the asset is on. -/
def convert (amount target source : ShareType) (symbol : AssetSymbol) :
    Except ChainError Asset := do
  ensure (0 < source) (.assertion "amount.value > 0")
  let result := UInt128.ofInt64 amount * UInt128.ofInt64 target / UInt128.ofInt64 source
  let converted ← UInt128.toShareType result
  return ⟨converted, symbol⟩

/-- The quotient a conversion computes does not wrap in 128 bits. -/
theorem toNat_quotient {amount target source : ShareType} (nonneg : 0 ≤ amount.toInt)
    (targetNonneg : 0 ≤ target.toInt) (positive : 0 < source.toInt) :
    ((UInt128.ofInt64 amount * UInt128.ofInt64 target / UInt128.ofInt64 source).toNat : Int) =
      amount.toInt * target.toInt / source.toInt := by
  rw [BitVec.toNat_udiv, UInt128.toNat_ofInt64_mul_ofInt64 nonneg targetNonneg,
    UInt128.toNat_ofInt64_of_nonneg (Int.le_of_lt positive)]
  push_cast
  rw [Int.toNat_of_nonneg nonneg, Int.toNat_of_nonneg targetNonneg,
    Int.toNat_of_nonneg (Int.le_of_lt positive)]

/-- A conversion that comes out below 2^63 is the exact quotient, rounded down. -/
theorem convert_eq_ok {amount target source : ShareType} {symbol : AssetSymbol} {converted : Asset}
    (nonneg : 0 ≤ amount.toInt) (targetNonneg : 0 ≤ target.toInt) (positive : 0 < source.toInt)
    (small : amount.toInt * target.toInt / source.toInt < 9223372036854775808) :
    convert amount target source symbol = .ok converted ↔
      converted.symbol = symbol ∧
        converted.amount.toInt = amount.toInt * target.toInt / source.toInt := by
  have cast := toNat_quotient nonneg targetNonneg positive
  have sourcePositive : 0 < source := by
    rw [Int64.lt_iff_toInt_lt]
    exact positive
  simp only [convert, except_bind_eq_ok, ensure_eq_ok, except_pure_eq_ok,
    UInt128.toShareType_eq_ok, ← cast]
  constructor
  · rintro ⟨_, _, result, ⟨_, rfl⟩, rfl⟩
    exact ⟨rfl, Int64.toInt_ofNat_of_lt (by omega)⟩
  · rintro ⟨sameSymbol, sameAmount⟩
    refine ⟨(), sourcePositive, _, ⟨by omega, rfl⟩, ?_⟩
    obtain ⟨value, kind⟩ := converted
    cases sameSymbol
    congr 1
    rw [← Int64.toInt_inj, Int64.toInt_ofNat_of_lt (by omega)]
    exact sameAmount.symm

/-- A conversion that comes out positive has not wrapped in 64 bits either. -/
theorem small_of_convert {amount target source : ShareType} {symbol : AssetSymbol}
    {converted : Asset} (nonneg : 0 ≤ amount.toInt) (targetNonneg : 0 ≤ target.toInt)
    (positive : 0 < source.toInt) (made : convert amount target source symbol = .ok converted)
    (gained : 0 < converted.amount.toInt) :
    amount.toInt * target.toInt / source.toInt < 9223372036854775808 := by
  simp only [convert, except_bind_eq_ok, ensure_eq_ok, except_pure_eq_ok,
    UInt128.toShareType_eq_ok] at made
  obtain ⟨_, _, result, ⟨fits, rfl⟩, rfl⟩ := made
  rw [← toNat_quotient nonneg targetNonneg positive]
  have wrapped {value : Nat} : (Int64.ofNat value).toInt = Int.bmod value 18446744073709551616 :=
    Int64.toInt_ofNat'
  rw [wrapped, Int.bmod_def] at gained
  split at gained <;> omega

/-- No negative amount is converted: the product wraps to something too large. -/
theorem nonneg_of_convert {amount target source : ShareType} {symbol : AssetSymbol}
    {converted : Asset} (positive : 0 < target.toInt) (positive' : 0 < source.toInt)
    (made : convert amount target source symbol = .ok converted) : 0 ≤ amount.toInt := by
  by_contra negative
  rw [Int.not_le] at negative
  simp only [convert, except_bind_eq_ok, ensure_eq_ok, except_pure_eq_ok,
    UInt128.toShareType_eq_ok] at made
  obtain ⟨_, _, result, ⟨fits, _⟩, _⟩ := made
  have lower := amount.le_toInt
  have upper := target.toInt_lt
  have upper' := source.toInt_lt
  have least : -85070591730234615865843651857942052864 ≤ amount.toInt * target.toInt := by
    have scaled := Int.mul_le_mul_of_nonneg_right lower (Int.le_of_lt positive)
    omega
  have wraps : (amount.toInt + 2 ^ 128) * target.toInt % 2 ^ 128 =
      amount.toInt * target.toInt + 2 ^ 128 := by
    have nonpos := Int.mul_neg_of_neg_of_pos negative positive
    rw [Int.add_mul, Int.add_mul_emod_self_left]
    omega
  have product : (UInt128.ofInt64 amount * UInt128.ofInt64 target).toNat =
      (amount.toInt * target.toInt + 340282366920938463463374607431768211456).toNat := by
    rw [← Int.toNat_natCast (BitVec.toNat _), BitVec.toNat_mul,
      UInt128.toNat_ofInt64_of_nonneg (Int.le_of_lt positive), Int.natCast_emod, Int.natCast_mul,
      UInt128.toNat_ofInt64_of_neg negative, Int.toNat_of_nonneg (Int.le_of_lt positive)]
    exact congrArg Int.toNat wraps
  have large : 340282366920938463463374607431768211456 - 85070591730234615865843651857942052864 ≤
      (UInt128.ofInt64 amount * UInt128.ofInt64 target).toNat := by
    rw [product]
    omega
  rw [BitVec.toNat_udiv, UInt128.toNat_ofInt64_of_nonneg (Int.le_of_lt positive'),
    Nat.div_lt_iff_lt_mul (by omega)] at fits
  omega

/-- `operator *` of an asset and a price -/
def mulPrice (a : Asset) (b : Price) : Except ChainError Asset :=
  if a.symbol = b.base.symbol then
    convert a.amount b.quote.amount b.base.amount b.quote.symbol
  else if a.symbol = b.quote.symbol then
    convert a.amount b.base.amount b.quote.amount b.base.symbol
  else .error (.assertion "invalid asset * price")

end Asset

end Zattera
