/-
This file is about prices as numbers. Valid prices are ordered as keys in a linear
order: by the pair of symbols first and by the quotient of the amounts within a pair,
where cross products in 128 bits compare the quotients exactly. What an asset is
worth at a price is exact as well, rounded down, unless it needs the sixty-fourth
bit, which an amount does not have.
-/

import Mathlib.Data.Prod.Lex
import Mathlib.Data.Rat.Cast.Order
import Zattera.Protocol.Asset

namespace Zattera

open Program

/-! ### The order of prices -/

/-- A price that passes its validation. -/
abbrev ValidPrice := { price : Price // price.validate = .ok () }

namespace Price

/-- The amount of the base for one of the quote. -/
def ratio (price : Price) : ℚ := price.base.amount.toInt / price.quote.amount.toInt

/-- What prices are ordered by. -/
def key (price : Price) : ℕ ×ₗ ℕ ×ₗ ℚ :=
  toLex (price.symbols.1, toLex (price.symbols.2, price.ratio))

theorem crossProducts_swap (a b : Price) :
    crossProducts b a = ((crossProducts a b).2, (crossProducts a b).1) := rfl

section

variable {a b : Price}

theorem positive_of_validate (valid : a.validate = .ok ()) :
    0 < a.base.amount.toInt ∧ 0 < a.quote.amount.toInt := by
  obtain ⟨base, quote, _⟩ := validate_eq_ok.mp valid
  exact ⟨Int64.lt_iff_toInt_lt.mp base, Int64.lt_iff_toInt_lt.mp quote⟩

/-- The cross products do not wrap. -/
theorem toNat_crossProducts (valid : a.validate = .ok ()) (valid' : b.validate = .ok ()) :
    ((crossProducts a b).1.toNat : ℤ) = a.base.amount.toInt * b.quote.amount.toInt ∧
      ((crossProducts a b).2.toNat : ℤ) = b.base.amount.toInt * a.quote.amount.toInt := by
  obtain ⟨base, quote⟩ := positive_of_validate valid
  obtain ⟨base', quote'⟩ := positive_of_validate valid'
  unfold crossProducts
  rw [UInt128.toNat_ofInt64_mul_ofInt64 quote'.le base.le,
    UInt128.toNat_ofInt64_mul_ofInt64 quote.le base'.le]
  push_cast
  rw [Int.toNat_of_nonneg base.le, Int.toNat_of_nonneg quote.le, Int.toNat_of_nonneg base'.le,
    Int.toNat_of_nonneg quote'.le]
  exact ⟨mul_comm _ _, mul_comm _ _⟩

/-- Cross products compare quotients. -/
theorem crossProducts_lt (valid : a.validate = .ok ()) (valid' : b.validate = .ok ()) :
    (crossProducts a b).1 < (crossProducts a b).2 ↔ a.ratio < b.ratio := by
  obtain ⟨_, quote⟩ := positive_of_validate valid
  obtain ⟨_, quote'⟩ := positive_of_validate valid'
  obtain ⟨first, second⟩ := toNat_crossProducts valid valid'
  unfold ratio
  rw [div_lt_div_iff₀ (Int.cast_pos.mpr quote) (Int.cast_pos.mpr quote'), BitVec.lt_def,
    ← Int.ofNat_lt, first, second]
  norm_cast

/-- Valid prices are ordered as their keys. -/
theorem lt_iff_key (valid : a.validate = .ok ()) (valid' : b.validate = .ok ()) :
    a.lt b = true ↔ a.key < b.key := by
  unfold lt key
  rw [Prod.Lex.toLex_lt_toLex, Prod.Lex.toLex_lt_toLex]
  by_cases same : a.symbols = b.symbols
  · rw [if_neg (not_not.mpr same), decide_eq_true_iff, crossProducts_lt valid valid', same]
    simp
  · rw [if_pos same, decide_eq_true_iff]
    have apart : a.symbols.1 = b.symbols.1 → a.symbols.2 ≠ b.symbols.2 := fun first second =>
      same (Prod.ext first second)
    dsimp only
    tauto

/-! ### The other operators -/

theorem gt_eq_lt (a b : Price) : a.gt b = b.lt a := by
  unfold gt lt
  rw [crossProducts_swap a b]
  simp only [ne_comm]

theorem ge_eq_le (a b : Price) : a.ge b = b.le a := by
  unfold ge le
  rw [crossProducts_swap a b]
  simp only [ne_comm]

theorem ne_eq_not_beq (a b : Price) : a.ne b = !a.beq b := by
  unfold ne beq
  split
  · rfl
  · rw [decide_not]

theorem le_eq_not_lt (a b : Price) : a.le b = !b.lt a := by
  unfold le lt
  rw [crossProducts_swap a b]
  by_cases same : a.symbols = b.symbols
  · rw [if_neg (not_not.mpr same), if_neg (not_not.mpr same.symm), ← decide_not]
    exact decide_eq_decide.mpr BitVec.not_lt.symm
  · rw [if_pos same, if_pos (Ne.symm same), ← decide_not]
    refine decide_eq_decide.mpr ?_
    omega

theorem beq_eq_not_lt (a b : Price) : a.beq b = (!a.lt b && !b.lt a) := by
  unfold beq lt
  rw [crossProducts_swap a b]
  by_cases same : a.symbols = b.symbols
  · rw [if_neg (not_not.mpr same), if_neg (not_not.mpr same), if_neg (not_not.mpr same.symm),
      ← decide_not, ← decide_not, ← Bool.decide_and]
    refine decide_eq_decide.mpr ?_
    rw [BitVec.not_lt, BitVec.not_lt]
    constructor
    · intro equal
      exact ⟨BitVec.le_of_eq equal.symm, BitVec.le_of_eq equal⟩
    · rintro ⟨ge, le⟩
      exact BitVec.le_antisymm le ge
  · have apart : a.symbols.1 = b.symbols.1 → a.symbols.2 ≠ b.symbols.2 := fun first second =>
      same (Prod.ext first second)
    rw [if_pos same, if_pos same, if_pos (Ne.symm same), ← decide_not, ← decide_not,
      ← Bool.decide_and]
    refine (decide_eq_false ?_).symm
    omega

theorem exists_invert (valid : a.validate = .ok ()) :
    ∃ turned, a.invert = .ok turned ∧ turned.validate = .ok () := by
  obtain ⟨base, quote, apart⟩ := validate_eq_ok.mp valid
  exact ⟨⟨a.quote, a.base⟩, make_eq_ok.mpr ⟨rfl, quote, base, apart.symm⟩,
    validate_eq_ok.mpr ⟨quote, base, apart.symm⟩⟩

/-- Turning two prices of one pair around swaps their cross products. -/
theorem lt_invert {a' b' : Price} (pair : a.symbols = b.symbols) (turned : a.invert = .ok a')
    (turned' : b.invert = .ok b') : a'.lt b' = b.lt a := by
  obtain ⟨rfl, _⟩ := make_eq_ok.mp turned
  obtain ⟨rfl, _⟩ := make_eq_ok.mp turned'
  have same : (⟨a.quote, a.base⟩ : Price).symbols = (⟨b.quote, b.base⟩ : Price).symbols :=
    Prod.ext (congrArg Prod.snd pair) (congrArg Prod.fst pair)
  unfold lt
  rw [if_neg (not_not.mpr same), if_neg (not_not.mpr pair.symm)]
  unfold crossProducts
  simp only [BitVec.mul_comm]

end

end Price

/-- On valid prices `<` is a strict weak order from which the other five operators are derived; two
prices of one pair compare as their quotients, and in reverse once they are turned around. -/
theorem prices_are_ordered :
    IsStrictWeakOrder ValidPrice (fun a b => a.1.lt b.1 = true) ∧
    (∀ a b : ValidPrice, a.1.gt b.1 = b.1.lt a.1 ∧ a.1.le b.1 = !b.1.lt a.1 ∧
      a.1.ge b.1 = !a.1.lt b.1 ∧ a.1.beq b.1 = (!a.1.lt b.1 && !b.1.lt a.1) ∧
      a.1.ne b.1 = !a.1.beq b.1) ∧
    ∀ a b : ValidPrice, a.1.base.symbol = b.1.base.symbol → a.1.quote.symbol = b.1.quote.symbol →
      (a.1.lt b.1 = true ↔ a.1.ratio < b.1.ratio) ∧
      ∃ a' b' : ValidPrice, a.1.invert = .ok a'.1 ∧ b.1.invert = .ok b'.1 ∧
        a'.1.lt b'.1 = b.1.lt a.1 := by
  refine ⟨?_, fun a b => ?_, fun a b base quote => ?_⟩
  · have keys : (fun a b : ValidPrice => a.1.lt b.1 = true) = fun a b => a.1.key < b.1.key := by
      funext a b
      exact propext (Price.lt_iff_key a.2 b.2)
    rw [keys]
    exact {
      irrefl := fun a => lt_irrefl a.1.key
      trans := fun _ _ _ => lt_trans
      incomp_trans := fun a b c first second => by
        rw [not_lt, not_lt] at first second ⊢
        exact ⟨second.1.trans first.1, first.2.trans second.2⟩ }
  · exact ⟨a.1.gt_eq_lt b.1, a.1.le_eq_not_lt b.1, (a.1.ge_eq_le b.1).trans (b.1.le_eq_not_lt a.1),
      a.1.beq_eq_not_lt b.1, a.1.ne_eq_not_beq b.1⟩
  · have pair : a.1.symbols = b.1.symbols :=
      Prod.ext (congrArg AssetSymbol.assetNum base) (congrArg AssetSymbol.assetNum quote)
    refine ⟨?_, ?_⟩
    · rw [Price.lt, if_neg (not_not.mpr pair), decide_eq_true_iff]
      exact Price.crossProducts_lt a.2 b.2
    · obtain ⟨a', turned, valid⟩ := Price.exists_invert a.2
      obtain ⟨b', turned', valid'⟩ := Price.exists_invert b.2
      exact ⟨⟨a', valid⟩, ⟨b', valid'⟩, turned, turned', Price.lt_invert pair turned turned'⟩

/-- Two liquid tokens for three dollars and three for five. -/
theorem two_thirds_above_three_fifths :
    let first : Price := ⟨⟨2, .liquid⟩, ⟨3, .dollar⟩⟩
    let second : Price := ⟨⟨3, .liquid⟩, ⟨5, .dollar⟩⟩
    second.lt first = true ∧ (second.lt first = true ↔ second.ratio < first.ratio) := by
  intro first second
  refine ⟨by decide, ?_⟩
  exact (prices_are_ordered.2.2 ⟨second, rfl⟩ ⟨first, rfl⟩ rfl rfl).1

/-! ### What an asset is worth -/

namespace Asset

/-- The exact product of an asset and a price, rounded down. -/
def worthAt (a : Asset) (b : Price) : ℤ :=
  if a.symbol = b.base.symbol then a.amount.toInt * b.quote.amount.toInt / b.base.amount.toInt
  else a.amount.toInt * b.base.amount.toInt / b.quote.amount.toInt

section

variable {amount target source : ShareType} {symbol : AssetSymbol}

/-- A conversion is exact unless it comes out between 2^63 and 2^64. -/
theorem convert_exact_iff (nonneg : 0 ≤ amount.toInt) (target_pos : 0 < target.toInt)
    (source_pos : 0 < source.toInt) :
    (∀ product, convert amount target source symbol = .ok product →
        0 ≤ product.amount.toInt ∧
          product.amount.toInt = amount.toInt * target.toInt / source.toInt) ↔
      amount.toInt * target.toInt / source.toInt < 9223372036854775808 ∨
        18446744073709551616 ≤ amount.toInt * target.toInt / source.toInt := by
  have exact := toNat_quotient nonneg target_pos.le source_pos
  constructor
  · intro sound
    by_contra! between
    have made : convert amount target source symbol =
        .ok ⟨Int64.ofNat (UInt128.ofInt64 amount * UInt128.ofInt64 target /
          UInt128.ofInt64 source).toNat, symbol⟩ := by
      refine except_bind_eq_ok.mpr ⟨(), ensure_eq_ok.mpr (Int64.lt_iff_toInt_lt.mpr source_pos), ?_⟩
      exact except_bind_eq_ok.mpr
        ⟨_, UInt128.toShareType_eq_ok.mpr ⟨by omega, rfl⟩, rfl⟩
    -- an amount is below 2^63
    have same := (sound _ made).2
    have small := Int64.toInt_lt (Int64.ofNat (UInt128.ofInt64 amount * UInt128.ofInt64 target /
      UInt128.ofInt64 source).toNat)
    dsimp only at same
    omega
  · rintro (small | large) product made
    · obtain ⟨_, same⟩ := (convert_eq_ok nonneg target_pos.le source_pos small).mp made
      exact ⟨same ▸ Int.ediv_nonneg (Int.mul_nonneg nonneg target_pos.le) source_pos.le, same⟩
    · obtain ⟨_, _, made⟩ := except_bind_eq_ok.mp made
      obtain ⟨_, fits, _⟩ := except_bind_eq_ok.mp made
      have fits := (UInt128.toShareType_eq_ok.mp fits).1
      omega

end

end Asset

/-- The product of an asset and a valid price is exact, or there is none, exactly unless the true
product lies between 2^63 and 2^64. -/
theorem product_exact_iff {a : Asset} {b : Price} (nonneg : 0 ≤ a.amount.toInt)
    (valid : b.validate = .ok ()) :
    (∀ product, a.mulPrice b = .ok product →
        0 ≤ product.amount.toInt ∧ product.amount.toInt = a.worthAt b) ↔
      (a.symbol = b.base.symbol ∨ a.symbol = b.quote.symbol →
        a.worthAt b < 9223372036854775808 ∨ 18446744073709551616 ≤ a.worthAt b) := by
  obtain ⟨base, quote⟩ := Price.positive_of_validate valid
  unfold Asset.mulPrice Asset.worthAt
  by_cases isBase : a.symbol = b.base.symbol
  · rw [if_pos isBase, if_pos isBase, Asset.convert_exact_iff nonneg quote base]
    exact ⟨fun exact _ => exact, fun exact => exact (.inl isBase)⟩
  · rw [if_neg isBase, if_neg isBase]
    by_cases isQuote : a.symbol = b.quote.symbol
    · rw [if_pos isQuote, Asset.convert_exact_iff nonneg base quote]
      exact ⟨fun exact _ => exact, fun exact => exact (.inr isQuote)⟩
    · rw [if_neg isQuote]
      refine ⟨fun _ pair => absurd pair (not_or.mpr ⟨isBase, isQuote⟩), fun _ product made => ?_⟩
      cases made

/-- Five liquid tokens, at three for a dollar. -/
theorem product_exact_at_three :
    let price : Price := ⟨⟨3, .liquid⟩, ⟨1, .dollar⟩⟩
    ∀ product, (⟨5, .liquid⟩ : Asset).mulPrice price = .ok product →
      0 ≤ product.amount.toInt ∧ product.amount.toInt = 1 :=
  (@product_exact_iff ⟨5, .liquid⟩ ⟨⟨3, .liquid⟩, ⟨1, .dollar⟩⟩ (by decide) rfl).mpr
    fun _ => .inl (by decide)

/-- At two for one, 2^62 comes out as less than nothing. -/
theorem product_of_large_amount_negative :
    (⟨⟨1, .liquid⟩, ⟨2, .dollar⟩⟩ : Price).validate = .ok () ∧
      (⟨4611686018427387904, .liquid⟩ : Asset).mulPrice ⟨⟨1, .liquid⟩, ⟨2, .dollar⟩⟩ =
        .ok ⟨-9223372036854775808, .dollar⟩ := by
  decide

end Zattera
