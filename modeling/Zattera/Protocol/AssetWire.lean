/-
This file models how the symbol of an asset is written in a transaction: eight bytes
that hold the number of decimals and the letters of the symbol. The reader takes four
bytes first and decides by them; what it does not know it takes for the internal
number of a symbol.
-/

import Zattera.Lib.Bytes
import Zattera.Protocol.Asset

namespace Zattera

open Program

/-- What reading throws. -/
inductive WireError where
  /-- The stream ends before the last byte. -/
  | outOfRange
  | assertion (message : String)
  deriving DecidableEq, Repr

/-- `read`: the next bytes of a stream and what is left of it. -/
def readBytes (count : Nat) (stream : List UInt8) : Except WireError (List UInt8 × List UInt8) :=
  match Bytes.slice? stream 0 count with
  | some bytes => .ok (bytes, stream.drop count)
  | none => .error .outOfRange

namespace AssetSymbol

/-- `LIQUID_SYMBOL_U64`, `DOLLAR_SYMBOL_U64` and `VESTS_SYMBOL_U64`: the letters of a symbol. -/
def letters : AssetSymbol → List Char
  | .liquid => ['Z', 'T', 'R']
  | .dollar => ['Z', 'B', 'D']
  | .vests => ['V', 'E', 'S', 'T', 'S']

/-- `decimals`, the lowest four bits of the internal number -/
def decimals (symbol : AssetSymbol) : Nat := symbol.assetNum % 16

/-- `LIQUID_SYMBOL_SER`, `DOLLAR_SYMBOL_SER` and `VESTS_SYMBOL_SER`: the decimals, with the letters
above them. -/
def serial : AssetSymbol → Nat
  | .liquid => 3 + 256 * Bytes.decode (liquid.letters.map fun letter => UInt8.ofNat letter.toNat)
  | .dollar => 3 + 256 * Bytes.decode (dollar.letters.map fun letter => UInt8.ofNat letter.toNat)
  | .vests => 6 + 256 * Bytes.decode (vests.letters.map fun letter => UInt8.ofNat letter.toNat)

/-- `pack` -/
def pack (symbol : AssetSymbol) : List UInt8 := Bytes.encode 8 symbol.serial

/-- `validate` of a symbol with this internal number -/
def ofAssetNum (number : Nat) : Except WireError AssetSymbol :=
  if number = liquid.assetNum then .ok .liquid
  else if number = dollar.assetNum then .ok .dollar
  else if number = vests.assetNum then .ok .vests
  else .error (.assertion "Unknown asset symbol")

/-- The branch of `unpack` for a symbol whose first four bytes have been read. -/
def unpackRest (symbol : AssetSymbol) (first stream : List UInt8) :
    Except WireError (AssetSymbol × List UInt8) := do
  let (second, stream) ← readBytes 4 stream
  if Bytes.decode (first ++ second) = symbol.serial then return (symbol, stream)
  else throw (.assertion "invalid asset bits")

/-- `unpack`: the symbol, and what is left of the stream. -/
def unpack (stream : List UInt8) : Except WireError (AssetSymbol × List UInt8) := do
  let (first, stream) ← readBytes 4 stream
  let ser := Bytes.decode first
  if ser = liquid.serial % 4294967296 then unpackRest .liquid first stream
  else if ser = dollar.serial % 4294967296 then unpackRest .dollar first stream
  else if ser = vests.serial % 4294967296 then unpackRest .vests first stream
  else do
    let symbol ← ofAssetNum ser
    return (symbol, stream)

end AssetSymbol

end Zattera
