/-
This file models how an asset is read from text such as `1.500 ZTR`. The whole part
and the fraction are read as integers on their own, the fraction behind a one that
keeps its leading zeros, and joined by machine arithmetic on 64 bits.
-/

import Zattera.Protocol.AssetWire

namespace Zattera

open Program

/-- What reading text throws. -/
inductive TextError where
  | assertion (message : String)
  /-- `parse_error_exception` -/
  | parse (message : String)
  deriving DecidableEq, Repr

/-! ### Numbers -/

/-- The number that decimal digits stand for when they follow those of another number. -/
def digitsFrom (value : Nat) (digits : List Char) : Nat :=
  digits.foldl (fun value digit => value * 10 + (digit.toNat - 48)) value

/-- A number without a sign: one digit or more. -/
def unsigned? (text : List Char) : Option Nat :=
  if text ≠ [] ∧ text.all Char.isDigit then some (digitsFrom 0 text) else none

/-- A number that may have a sign in front. -/
def signed? : List Char → Option Int
  | '-' :: digits => (unsigned? digits).map fun value => -Int.ofNat value
  | '+' :: digits => (unsigned? digits).map Int.ofNat
  | digits => (unsigned? digits).map Int.ofNat

/-- `fc::to_int64` -/
def toInt64 (text : List Char) : Except TextError Int64 :=
  match signed? text with
  | some value =>
    if -9223372036854775808 ≤ value ∧ value < 9223372036854775808 then .ok (Int64.ofInt value)
    else .error (.parse "Couldn't parse int64_t")
  | none => .error (.parse "Couldn't parse int64_t")

/-! ### Symbols -/

/-- What the parser of symbols skips. -/
def isBlank (character : Char) : Bool :=
  character == ' ' || character == '\t' || character == '\n' || character == '\r'

/-- What `trim` skips. -/
def isSpace (character : Char) : Bool :=
  isBlank character || character == '\x0b' || character == '\x0c'

/-- `fc::trim` -/
def trim (text : List Char) : List Char :=
  ((text.dropWhile isSpace).reverse.dropWhile isSpace).reverse

/-- The symbol with these letters, which must be given with this number of decimals. -/
def AssetSymbol.ofLetters (letters : List Char) (decimals : Nat) : Except TextError AssetSymbol :=
  if letters = liquid.letters then do
    ensure (decimals = 3) (.assertion "Incorrect decimal places")
    return .liquid
  else if letters = dollar.letters then do
    ensure (decimals = 3) (.assertion "Incorrect decimal places")
    return .dollar
  else if letters = vests.letters then do
    ensure (decimals = 6) (.assertion "Incorrect decimal places")
    return .vests
  else .error (.assertion "Cannot parse asset symbol")

/-- `string_to_asset_num`, which sees the text up to its first zero character. -/
def stringToAssetNum (text : List Char) (decimals : Nat) : Except TextError AssetSymbol := do
  let text := (text.takeWhile (· != '\x00')).dropWhile isBlank
  let letters := text.takeWhile Char.isUpper
  ensure (letters ≠ []) (.assertion "Cannot parse asset symbol")
  ensure (letters.length ≤ 8) (.assertion "Cannot parse asset symbol")
  let symbol ← AssetSymbol.ofLetters letters decimals
  ensure ((text.dropWhile Char.isUpper).dropWhile isBlank = [])
    (.assertion "Cannot parse asset symbol")
  return symbol

/-- `precision` -/
def precision (symbol : AssetSymbol) : Int64 := Int64.ofNat (10 ^ symbol.decimals)

/-! ### Assets -/

/-- `asset_from_string`. Signed overflow of the sums is taken to wrap. -/
def assetFromString (text : List Char) : Except TextError Asset := do
  let s := trim text
  match s.findIdx? (· == ' ') with
  | none => .error (.assertion "space_pos != std::string::npos")
  | some spacePos =>
    let symbolText := s.drop (spacePos + 1)
    match s.findIdx? (· == '.') with
    | some dotPos => do
      ensure (dotPos < spacePos) (.assertion "space_pos > dot_pos")
      let intpart := s.take dotPos
      let fractpart := '1' :: (s.drop (dotPos + 1)).take (spacePos - dotPos - 1)
      let decimals := (fractpart.length - 1) % 256
      let symbol ← stringToAssetNum symbolText decimals
      let whole ← toInt64 intpart
      let fraction ← toInt64 fractpart
      return ⟨whole * precision symbol + fraction - precision symbol, symbol⟩
    | none => do
      let whole ← toInt64 (s.take spacePos)
      let symbol ← stringToAssetNum symbolText 0
      return ⟨whole, symbol⟩

end Zattera
