/-
This file compares the amount that is read from text with the decimal number that is
written there. The two agree for numbers that are not negative and fit. The sign of a
negative number is lost on its fraction, and what does not fit wraps.
-/

import Mathlib.Data.List.TakeWhile
import Mathlib.Tactic.NormNum
import Mathlib.Tactic.Ring
import Mathlib.Tactic.Zify
import Zattera.Protocol.AssetText

namespace Zattera

open Program

variable {text : List Char}

/-! ### The number that is written -/

/-- The text before the first blank, once the blanks around are gone. -/
def numeral (text : List Char) : List Char := (trim text).takeWhile (· != ' ')

/-- The digits before the point, with their sign. -/
def wholePart (numeral : List Char) : List Char := numeral.takeWhile (· != '.')

/-- The digits after the point. -/
def fractionPart (numeral : List Char) : List Char := (numeral.dropWhile (· != '.')).tail

/-- A decimal number without a sign. -/
def magnitude? (numeral : List Char) : Option ℚ := do
  let whole ← unsigned? (wholePart numeral)
  let fraction ← unsigned? (fractionPart numeral)
  return whole + fraction / 10 ^ (fractionPart numeral).length

/-- A decimal number that may have a sign in front. -/
def decimal? : List Char → Option ℚ
  | '-' :: numeral => (magnitude? numeral).map fun value => -value
  | '+' :: numeral => magnitude? numeral
  | numeral => magnitude? numeral

/-! ### Digits -/

theorem digitsFrom_eq (value : Nat) (digits : List Char) :
    digitsFrom value digits = value * 10 ^ digits.length + digitsFrom 0 digits := by
  induction digits generalizing value with
  | nil => simp [digitsFrom]
  | cons digit rest inductionHypothesis =>
    have first (start : Nat) : digitsFrom start (digit :: rest) =
        digitsFrom (start * 10 + (digit.toNat - 48)) rest := rfl
    rw [first, first, inductionHypothesis, inductionHypothesis (0 * 10 + (digit.toNat - 48)),
      List.length_cons, Nat.pow_succ]
    ring

theorem unsigned?_eq_some {value : Nat} :
    unsigned? text = some value ↔
      text ≠ [] ∧ (∀ digit ∈ text, digit.isDigit = true) ∧ digitsFrom 0 text = value := by
  unfold unsigned?
  rw [← List.all_eq_true, ← and_assoc]
  split
  next digits => rw [Option.some.injEq, and_iff_right digits]
  next other =>
    constructor
    · intro none
      cases none
    · rintro ⟨digits, _⟩
      exact absurd digits other

/-- A fraction behind a one: its digits are counted. -/
theorem signed?_one_cons {digits : List Char} {value : Int} (filled : digits ≠ [])
    (read : signed? ('1' :: digits) = some value) :
    ∃ fraction, unsigned? digits = some fraction ∧ value = 10 ^ digits.length + fraction := by
  obtain ⟨number, isNumber, rfl⟩ := Option.map_eq_some_iff.mp read
  obtain ⟨_, all, rfl⟩ := unsigned?_eq_some.mp isNumber
  refine ⟨digitsFrom 0 digits, unsigned?_eq_some.mpr ⟨filled, fun digit member =>
    all digit (List.mem_cons_of_mem _ member), rfl⟩, ?_⟩
  have first : digitsFrom 0 ('1' :: digits) = digitsFrom 1 digits := rfl
  rw [first, digitsFrom_eq, Nat.one_mul, Int.ofNat_eq_natCast]
  push_cast
  rfl

theorem toInt64_eq_ok {result : Int64} :
    toInt64 text = .ok result ↔ ∃ value, signed? text = some value ∧ result.toInt = value := by
  have upper := result.toInt_lt
  have lower := result.le_toInt
  unfold toInt64
  cases signed? text with
  | none => simp
  | some value =>
    simp only [Option.some.injEq, exists_eq_left']
    split
    next fits =>
      rw [Except.ok.injEq, ← Int64.toInt_inj, Int64.toInt_ofInt_of_le (by omega) (by omega)]
      exact eq_comm
    next outside =>
      constructor
      · intro failed
        cases failed
      · intro same
        refine absurd ?_ outside
        omega

/-! ### The parts of a numeral -/

theorem parts_of_point {whole : List Char} (pointless : ∀ c ∈ whole, c ≠ '.')
    (fraction : List Char) :
    wholePart (whole ++ '.' :: fraction) = whole ∧
      fractionPart (whole ++ '.' :: fraction) = fraction := by
  have all : ∀ c ∈ whole, (c != '.') = true := fun c member => bne_iff_ne.mpr (pointless c member)
  unfold wholePart fractionPart
  rw [List.takeWhile_append_of_pos all, List.dropWhile_append_of_pos all]
  simp

/-- What comes before a character is what is taken while it does not show. -/
theorem take_eq_takeWhile {character : Char} {place : Nat}
    (found : text.findIdx? (· == character) = some place) :
    text.take place = text.takeWhile (· != character) := by
  obtain ⟨_, rfl⟩ := List.findIdx?_eq_some_iff_findIdx_eq.mp found
  rw [List.takeWhile_eq_take_findIdx_not]
  simp only [bne, Bool.not_not]

theorem take_eq_append_point {dotPos spacePos : Nat}
    (found : text.findIdx? (· == '.') = some dotPos) (before : dotPos < spacePos) :
    text.take spacePos =
      text.take dotPos ++ '.' :: (text.drop (dotPos + 1)).take (spacePos - dotPos - 1) := by
  obtain ⟨inside, isPoint, _⟩ := List.findIdx?_eq_some_iff_getElem.mp found
  have point : text[dotPos] = '.' := beq_iff_eq.mp isPoint
  have width : spacePos = dotPos + (spacePos - dotPos - 1 + 1) := by omega
  conv_lhs => rw [width, List.take_add, ← List.getElem_cons_drop inside, List.take_succ_cons, point]

theorem magnitude?_eq {numeral : List Char} {whole fraction : Nat}
    (isWhole : unsigned? (wholePart numeral) = some whole)
    (isFraction : unsigned? (fractionPart numeral) = some fraction) :
    magnitude? numeral =
      some ((whole : ℚ) + fraction / 10 ^ (fractionPart numeral).length) := by
  unfold magnitude?
  rw [isWhole, isFraction]
  rfl

/-- The value of a numeral, from those of its parts. -/
theorem decimal?_eq {numeral : List Char} {whole : Int} {fraction : Nat}
    (isWhole : signed? (wholePart numeral) = some whole)
    (isFraction : unsigned? (fractionPart numeral) = some fraction) :
    decimal? numeral = some (if numeral.head? = some '-'
      then (whole : ℚ) - fraction / 10 ^ (fractionPart numeral).length
      else (whole : ℚ) + fraction / 10 ^ (fractionPart numeral).length) := by
  cases numeral with
  | nil => cases isWhole
  | cons first rest =>
    have signless (apart : first ≠ '.') : wholePart (first :: rest) = first :: wholePart rest ∧
        fractionPart (first :: rest) = fractionPart rest := by
      have taken : (first != '.') = true := bne_iff_ne.mpr apart
      simp only [wholePart, fractionPart, List.takeWhile_cons, List.dropWhile_cons, taken, if_true,
        and_self]
    by_cases minus : first = '-'
    · subst minus
      obtain ⟨isPart, sameFraction⟩ := signless (by decide)
      rw [isPart] at isWhole
      rw [sameFraction] at isFraction ⊢
      obtain ⟨digits, isDigits, rfl⟩ := Option.map_eq_some_iff.mp isWhole
      have value := congrArg (Option.map fun value : ℚ => -value) (magnitude?_eq isDigits isFraction)
      refine value.trans (congrArg some ?_)
      rw [List.head?_cons, if_pos rfl, Int.ofNat_eq_natCast]
      push_cast
      ring
    · rw [List.head?_cons, if_neg fun same => minus (Option.some.inj same)]
      by_cases plus : first = '+'
      · subst plus
        obtain ⟨isPart, sameFraction⟩ := signless (by decide)
        rw [isPart] at isWhole
        rw [sameFraction] at isFraction ⊢
        obtain ⟨digits, isDigits, rfl⟩ := Option.map_eq_some_iff.mp isWhole
        exact magnitude?_eq isDigits isFraction
      · have unsigned : signed? (wholePart (first :: rest)) =
            (unsigned? (wholePart (first :: rest))).map Int.ofNat := by
          by_cases apart : first = '.'
          · subst apart
            rfl
          · rw [(signless apart).1]
            exact signed?.eq_3 _ (fun _ same => minus (List.head_eq_of_cons_eq same))
              fun _ same => plus (List.head_eq_of_cons_eq same)
        rw [unsigned] at isWhole
        obtain ⟨digits, isDigits, rfl⟩ := Option.map_eq_some_iff.mp isWhole
        refine Eq.trans ?_ (magnitude?_eq isDigits isFraction)
        exact decimal?.eq_3 _ (fun _ same => minus (List.head_eq_of_cons_eq same))
          fun _ same => plus (List.head_eq_of_cons_eq same)

/-! ### The amount that is read -/

/-- A symbol is only read with its own number of decimals, which is positive. -/
theorem decimals_of_stringToAssetNum {decimals : Nat} {symbol : AssetSymbol}
    (read : stringToAssetNum text decimals = .ok symbol) : decimals = symbol.decimals := by
  obtain ⟨_, _, read⟩ := except_bind_eq_ok.mp read
  obtain ⟨_, _, read⟩ := except_bind_eq_ok.mp read
  obtain ⟨found, isFound, read⟩ := except_bind_eq_ok.mp read
  obtain ⟨_, _, read⟩ := except_bind_eq_ok.mp read
  obtain rfl := except_pure_eq_ok.mp read
  unfold AssetSymbol.ofLetters at isFound
  split at isFound
  next =>
    obtain ⟨_, three, done⟩ := except_bind_eq_ok.mp isFound
    obtain rfl := except_pure_eq_ok.mp done
    exact ensure_eq_ok.mp three
  next =>
    split at isFound
    next =>
      obtain ⟨_, three, done⟩ := except_bind_eq_ok.mp isFound
      obtain rfl := except_pure_eq_ok.mp done
      exact ensure_eq_ok.mp three
    next =>
      split at isFound
      next =>
        obtain ⟨_, six, done⟩ := except_bind_eq_ok.mp isFound
        obtain rfl := except_pure_eq_ok.mp done
        exact ensure_eq_ok.mp six
      next => cases isFound

theorem decimals_cases (symbol : AssetSymbol) : symbol.decimals = 3 ∨ symbol.decimals = 6 := by
  cases symbol <;> decide

/-- What is put in front of the fraction is taken out again. -/
theorem joined_amount (whole : Int64) {fraction : Int64} (power digits : Nat)
    (same : fraction.toInt = power + digits) :
    whole * Int64.ofNat power + fraction - Int64.ofNat power =
      Int64.ofInt (whole.toInt * power + digits) := by
  have isFraction : fraction = Int64.ofInt (power + digits) := by
    rw [← same, Int64.ofInt_toInt]
  have isWhole : whole = Int64.ofInt whole.toInt := (Int64.ofInt_toInt whole).symm
  have isPower : Int64.ofNat power = Int64.ofInt power := rfl
  conv_lhs =>
    rw [isFraction, isWhole, isPower, ← Int64.ofInt_mul, ← Int64.ofInt_add, ← Int64.ofInt_sub]
  congr 1
  ring

/-- The two parts of a numeral are joined without regard to the sign. -/
theorem assetFromString_eq_ok {asset : Asset} (read : assetFromString text = .ok asset) :
    ∃ (whole : Int) (fraction : Nat), signed? (wholePart (numeral text)) = some whole ∧
      unsigned? (fractionPart (numeral text)) = some fraction ∧
      (fractionPart (numeral text)).length = asset.symbol.decimals ∧
      fraction < 9223372036854775808 ∧
      asset.amount = Int64.ofInt (whole * 10 ^ asset.symbol.decimals + fraction) := by
  unfold assetFromString at read
  dsimp only at read
  split at read
  next => cases read
  next spacePos isSpace =>
    have isNumeral : (trim text).take spacePos = numeral text := take_eq_takeWhile isSpace
    split at read
    next dotPos isDot =>
      obtain ⟨_, before, read⟩ := except_bind_eq_ok.mp read
      obtain ⟨symbol, isSymbol, read⟩ := except_bind_eq_ok.mp read
      obtain ⟨whole, isWhole, read⟩ := except_bind_eq_ok.mp read
      obtain ⟨fraction, isFraction, read⟩ := except_bind_eq_ok.mp read
      obtain rfl := except_pure_eq_ok.mp read
      have cut := take_eq_append_point isDot (ensure_eq_ok.mp before)
      have pointless : ∀ c ∈ (trim text).take dotPos, c ≠ '.' := by
        intro c member
        rw [take_eq_takeWhile isDot] at member
        exact bne_iff_ne.mp (List.mem_takeWhile_imp member :)
      obtain ⟨isPart, isRest⟩ := parts_of_point pointless
        (((trim text).drop (dotPos + 1)).take (spacePos - dotPos - 1))
      rw [← cut, isNumeral] at isPart isRest
      rw [← isPart] at isWhole
      rw [← isRest] at isFraction isSymbol
      rw [List.length_cons, Nat.add_sub_cancel] at isSymbol
      have decimals := decimals_of_stringToAssetNum isSymbol
      have known := decimals_cases symbol
      have filled : fractionPart (numeral text) ≠ [] := by
        intro empty
        rw [empty, List.length_nil] at decimals
        omega
      obtain ⟨_, isSigned, rfl⟩ := toInt64_eq_ok.mp isWhole
      obtain ⟨_, isOne, same⟩ := toInt64_eq_ok.mp isFraction
      obtain ⟨digits, isDigits, rfl⟩ := signed?_one_cons filled isOne
      -- more than eighteen digits behind a one do not fit
      have short : (fractionPart (numeral text)).length < 19 := by
        by_contra long
        have large : 10 ^ 19 ≤ 10 ^ (fractionPart (numeral text)).length :=
          Nat.pow_le_pow_right (by decide) (Nat.le_of_not_lt long)
        have small := fraction.toInt_lt
        rw [same] at small
        zify at large
        omega
      have length : (fractionPart (numeral text)).length = symbol.decimals := by
        rw [Nat.mod_eq_of_lt (by omega)] at decimals
        exact decimals
      have isSum : fraction.toInt = (10 ^ symbol.decimals : Nat) + digits := by
        rw [same, length]
        push_cast
        rfl
      refine ⟨whole.toInt, digits, isSigned, isDigits, length, ?_, ?_⟩
      · have small := fraction.toInt_lt
        have positive : 0 < 10 ^ symbol.decimals := Nat.pow_pos (by decide)
        omega
      · rw [precision, joined_amount whole _ digits isSum]
        push_cast
        rfl
    next =>
      obtain ⟨whole, _, read⟩ := except_bind_eq_ok.mp read
      obtain ⟨symbol, isSymbol, _⟩ := except_bind_eq_ok.mp read
      have none := decimals_of_stringToAssetNum isSymbol
      rcases decimals_cases symbol with some | some <;> omega

/-- A number of 64 bits is an exact value if that fits and is the same but for wrapping. -/
theorem toInt_ofInt_eq_iff {value exact : Int} :
    (Int64.ofInt value).toInt = exact ↔
      (-9223372036854775808 ≤ exact ∧ exact < 9223372036854775808) ∧
        (18446744073709551616 : Int) ∣ value - exact := by
  rw [Int64.toInt_ofInt, Int.bmod_def]
  change (if value % 18446744073709551616 < 9223372036854775808 then value % 18446744073709551616
    else value % 18446744073709551616 - 18446744073709551616) = exact ↔ _
  split <;> omega

/-- The amount that is read from a text is the decimal number written there, times ten to the
decimals of its symbol, exactly if that number fits and has no fraction to lose its sign on. -/
theorem asset_text_exact_iff {text : List Char} {asset : Asset}
    (accepted : assetFromString text = .ok asset) :
    (∃ number, decimal? (numeral text) = some number ∧
        (asset.amount.toInt : ℚ) = number * 10 ^ asset.symbol.decimals) ↔
      ((numeral text).head? = some '-' → unsigned? (fractionPart (numeral text)) = some 0) ∧
        ∀ number, decimal? (numeral text) = some number →
          -9223372036854775808 ≤ number * 10 ^ (fractionPart (numeral text)).length ∧
            number * 10 ^ (fractionPart (numeral text)).length < 9223372036854775808 := by
  obtain ⟨whole, fraction, isWhole, isFraction, length, small, amount⟩ :=
    assetFromString_eq_ok accepted
  have power : (10 ^ asset.symbol.decimals : ℚ) ≠ 0 := pow_ne_zero _ (by norm_num)
  have least : Int.negSucc 9223372036854775807 = -9223372036854775808 := rfl
  rw [decimal?_eq isWhole isFraction, isFraction, length, amount]
  simp only [Option.some.injEq, exists_eq_left', forall_eq']
  split
  next negative =>
    have scaled : ((whole : ℚ) - fraction / 10 ^ asset.symbol.decimals) *
        10 ^ asset.symbol.decimals = ((whole * 10 ^ asset.symbol.decimals - fraction : Int) : ℚ) := by
      rw [sub_mul, div_mul_cancel₀ _ power]
      push_cast
      rfl
    rw [scaled]
    norm_cast
    rw [toInt_ofInt_eq_iff, least]
    simp only [negative, true_imp_iff]
    -- the two differ by twice the fraction, which is too small to wrap
    generalize whole * ((10 ^ asset.symbol.decimals : Nat) : Int) = base
    omega
  next positive =>
    have scaled : ((whole : ℚ) + fraction / 10 ^ asset.symbol.decimals) *
        10 ^ asset.symbol.decimals = ((whole * 10 ^ asset.symbol.decimals + fraction : Int) : ℚ) := by
      rw [add_mul, div_mul_cancel₀ _ power]
      push_cast
      rfl
    rw [scaled]
    norm_cast
    rw [toInt_ofInt_eq_iff, least]
    simp only [positive, false_imp_iff, true_and, sub_self, dvd_zero, and_true]

/-- One and a half liquid tokens. -/
theorem one_and_a_half_exact :
    ∃ number, decimal? (numeral "1.500 ZTR".toList) = some number ∧
      ((1500 : ShareType).toInt : ℚ) = number * 10 ^ AssetSymbol.liquid.decimals := by
  have written : decimal? (numeral "1.500 ZTR".toList) = some (3 / 2) := by decide +kernel
  have length : (fractionPart (numeral "1.500 ZTR".toList)).length = 3 := by decide +kernel
  have accepted : assetFromString "1.500 ZTR".toList = .ok ⟨1500, .liquid⟩ := by decide +kernel
  refine (asset_text_exact_iff accepted).mpr ⟨fun negative => absurd negative (by decide), ?_⟩
  intro number isNumber
  obtain rfl := Option.some.inj (written.symm.trans isNumber)
  rw [length]
  norm_num

/-- Of minus one and a half tokens the fraction is taken to be positive, and 2^63 of the smallest
units come out as less than nothing. -/
theorem negative_fraction_and_overflow :
    assetFromString "-1.500 ZTR".toList = .ok ⟨-500, .liquid⟩ ∧
      assetFromString "9223372036854775.808 ZTR".toList = .ok ⟨-9223372036854775808, .liquid⟩ := by
  decide +kernel

end Zattera
