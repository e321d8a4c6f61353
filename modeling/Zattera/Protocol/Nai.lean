/-
This file models the numeric identifiers of assets: eight digits of data and a check
digit by the algorithm of Damm, as `asset_num_from_nai` takes them apart.
-/

import Zattera.Protocol.Asset

namespace Zattera

open Program

/-- The table of `damm_checksum_8digit`, row by row, with entries ten times as large. -/
def dammTable : List Nat :=
  [0, 30, 10, 70, 50, 90, 80, 60, 40, 20,
    70, 0, 90, 20, 10, 50, 40, 80, 60, 30,
    40, 20, 0, 60, 80, 70, 10, 30, 50, 90,
    10, 70, 50, 0, 90, 80, 30, 40, 20, 60,
    60, 10, 20, 30, 0, 40, 50, 90, 70, 80,
    30, 60, 70, 40, 20, 0, 90, 50, 80, 10,
    50, 80, 60, 90, 70, 20, 0, 10, 30, 40,
    80, 90, 40, 50, 30, 60, 20, 0, 10, 70,
    90, 40, 30, 80, 60, 10, 70, 20, 0, 50,
    20, 50, 80, 10, 40, 30, 60, 70, 90, 0]

/-- `damm_checksum_8digit` -/
def dammChecksum8digit (value : Nat) : Except ChainError Nat := do
  ensure (value < 100000000) (.assertion "value < 100000000")
  let q0 := value / 10
  let d0 := value % 10
  let q1 := q0 / 10
  let d1 := q0 % 10
  let q2 := q1 / 10
  let d2 := q1 % 10
  let q3 := q2 / 10
  let d3 := q2 % 10
  let q4 := q3 / 10
  let d4 := q3 % 10
  let q5 := q4 / 10
  let d5 := q4 % 10
  let d6 := q5 % 10
  let d7 := q5 / 10
  let x := dammTable.getD d7 0
  let x := dammTable.getD (x + d6) 0
  let x := dammTable.getD (x + d5) 0
  let x := dammTable.getD (x + d4) 0
  let x := dammTable.getD (x + d3) 0
  let x := dammTable.getD (x + d2) 0
  let x := dammTable.getD (x + d1) 0
  let x := dammTable.getD (x + d0) 0
  return x / 10

/-- `asset_num_from_nai` -/
def assetNumFromNai (nai decimalPlaces : Nat) : Except ChainError Nat := do
  let naiCheckDigit := nai % 10
  let naiDataDigits := nai / 10
  ensure (1 ≤ naiDataDigits ∧ naiDataDigits ≤ 99999999) (.assertion "NAI out of range")
  let checksum ← dammChecksum8digit naiDataDigits
  ensure (naiCheckDigit = checksum) (.assertion "Invalid check digit")
  if naiDataDigits = 2 then do
    ensure (decimalPlaces = 3) (.assertion "decimal_places == ZATTERA_PRECISION_LIQUID")
    return AssetSymbol.liquid.assetNum
  else if naiDataDigits = 1 then do
    ensure (decimalPlaces = 3) (.assertion "decimal_places == ZATTERA_PRECISION_DOLLAR")
    return AssetSymbol.dollar.assetNum
  else if naiDataDigits = 3 then do
    ensure (decimalPlaces = 6) (.assertion "decimal_places == ZATTERA_PRECISION_VESTS")
    return AssetSymbol.vests.assetNum
  else do
    ensure (decimalPlaces ≤ 12) (.assertion "Invalid decimal_places")
    return naiDataDigits <<< 5 ||| 0x10 ||| decimalPlaces

end Zattera
