/-
This file asks whether the symbol of an asset has one encoding only. What the reader
accepts after eight bytes is what the writer writes, but the internal number of a
symbol is accepted as well, in four bytes that nobody writes.
-/

import Zattera.Protocol.AssetWire

namespace Zattera

open Program

section

variable {stream first rest : List UInt8} {count : Nat} {symbol : AssetSymbol}

theorem readBytes_eq_ok : readBytes count stream = .ok (first, rest) ↔
    stream = first ++ rest ∧ first.length = count := by
  unfold readBytes Bytes.slice?
  rw [Nat.zero_add, List.drop_zero]
  constructor
  · intro read
    split at read
    next bytes taken =>
      obtain ⟨rfl, rfl⟩ := Prod.mk.inj (Except.ok.inj read)
      split at taken
      next enough =>
        obtain rfl := Option.some.inj taken
        exact ⟨(List.take_append_drop count stream).symm, List.length_take_of_le enough⟩
      next => cases taken
    next => cases read
  · rintro ⟨rfl, rfl⟩
    rw [if_pos (by rw [List.length_append]; omega), List.take_left, List.drop_left]

/-- Bytes that stand for a number of a fixed width are its encoding. -/
theorem eq_encode_of_decode {bytes : List UInt8} {number : Nat} (length : bytes.length = count)
    (stands : Bytes.decode bytes = number) : bytes = Bytes.encode count number := by
  rw [← length, ← stands, Bytes.encode_decode]

namespace AssetSymbol

/-- After eight bytes the reader has seen what the writer writes. -/
theorem unpackRest_eq_ok {other : AssetSymbol} {left : List UInt8} (length : first.length = 4)
    (read : unpackRest symbol first stream = .ok (other, left)) :
    first ++ stream = other.pack ++ left := by
  obtain ⟨⟨second, after⟩, more, checked⟩ := except_bind_eq_ok.mp read
  obtain ⟨rfl, length'⟩ := readBytes_eq_ok.mp more
  dsimp only at checked
  split at checked
  next stands =>
    obtain ⟨rfl, rfl⟩ := Prod.mk.inj (Except.ok.inj checked)
    rw [← List.append_assoc, pack, ← eq_encode_of_decode _ stands]
    rw [List.length_append, length, length']
  next => cases checked

theorem ofAssetNum_eq_ok {number : Nat} :
    ofAssetNum number = .ok symbol ↔ number = symbol.assetNum := by
  constructor
  · unfold ofAssetNum
    intro known
    split at known
    next isLiquid =>
      cases known
      exact isLiquid
    next =>
      split at known
      next isDollar =>
        cases known
        exact isDollar
      next =>
        split at known
        next isVests =>
          cases known
          exact isVests
        next => cases known
  · rintro rfl
    cases symbol <;> rfl

/-- What the reader accepts is what the writer writes, or the internal number of the symbol. -/
theorem unpack_eq_ok (read : unpack stream = .ok (symbol, rest)) :
    stream = symbol.pack ++ rest ∨ stream = Bytes.encode 4 symbol.assetNum ++ rest := by
  obtain ⟨⟨first, after⟩, four, decided⟩ := except_bind_eq_ok.mp read
  obtain ⟨rfl, length⟩ := readBytes_eq_ok.mp four
  dsimp only at decided
  by_cases isLiquid : Bytes.decode first = liquid.serial % 4294967296
  · rw [if_pos isLiquid] at decided
    exact .inl (unpackRest_eq_ok length decided)
  by_cases isDollar : Bytes.decode first = dollar.serial % 4294967296
  · rw [if_neg isLiquid, if_pos isDollar] at decided
    exact .inl (unpackRest_eq_ok length decided)
  by_cases isVests : Bytes.decode first = vests.serial % 4294967296
  · rw [if_neg isLiquid, if_neg isDollar, if_pos isVests] at decided
    exact .inl (unpackRest_eq_ok length decided)
  rw [if_neg isLiquid, if_neg isDollar, if_neg isVests] at decided
  obtain ⟨known, isKnown, done⟩ := except_bind_eq_ok.mp decided
  obtain ⟨rfl, rfl⟩ := Prod.mk.inj (Except.ok.inj done)
  rw [← eq_encode_of_decode length (ofAssetNum_eq_ok.mp isKnown)]
  exact .inr rfl

/-- The internal number of a symbol is accepted. -/
theorem unpack_encode_assetNum (symbol : AssetSymbol) (rest : List UInt8) :
    unpack (Bytes.encode 4 symbol.assetNum ++ rest) = .ok (symbol, rest) := by
  have four : readBytes 4 (Bytes.encode 4 symbol.assetNum ++ rest) =
      .ok (Bytes.encode 4 symbol.assetNum, rest) :=
    readBytes_eq_ok.mpr ⟨rfl, Bytes.length_encode 4 _⟩
  refine except_bind_eq_ok.mpr ⟨_, four, ?_⟩
  cases symbol <;> rfl

/-- What the writer writes is read back. -/
theorem unpack_pack (symbol : AssetSymbol) (rest : List UInt8) :
    unpack (symbol.pack ++ rest) = .ok (symbol, rest) := by
  have split : symbol.pack = symbol.pack.take 4 ++ symbol.pack.drop 4 :=
    (List.take_append_drop 4 _).symm
  have four : readBytes 4 (symbol.pack ++ rest) =
      .ok (symbol.pack.take 4, symbol.pack.drop 4 ++ rest) := by
    refine readBytes_eq_ok.mpr ⟨?_, ?_⟩
    · rw [← List.append_assoc, ← split]
    · cases symbol <;> rfl
  have more : readBytes 4 (symbol.pack.drop 4 ++ rest) = .ok (symbol.pack.drop 4, rest) := by
    refine readBytes_eq_ok.mpr ⟨rfl, ?_⟩
    cases symbol <;> rfl
  refine except_bind_eq_ok.mpr ⟨_, four, ?_⟩
  cases symbol <;> exact except_bind_eq_ok.mpr ⟨_, more, rfl⟩

end AssetSymbol

end

/-- What is read from a stream is what would be written, exactly unless the stream starts with the
internal number of a symbol. -/
theorem unpack_canonical_iff (stream : List UInt8) :
    (∀ symbol rest, AssetSymbol.unpack stream = .ok (symbol, rest) →
        stream = symbol.pack ++ rest) ↔
      ∀ symbol : AssetSymbol, stream.take 4 ≠ Bytes.encode 4 symbol.assetNum := by
  constructor
  · intro canonical symbol starts
    have whole : stream = Bytes.encode 4 symbol.assetNum ++ stream.drop 4 := by
      rw [← starts, List.take_append_drop]
    have read : AssetSymbol.unpack stream = .ok (symbol, stream.drop 4) := by
      rw [whole]
      exact AssetSymbol.unpack_encode_assetNum symbol _
    -- eight bytes would have been consumed, not four
    have length := congrArg List.length (canonical symbol _ read)
    have length' := congrArg List.length whole
    rw [List.length_append] at length length'
    rw [AssetSymbol.pack, Bytes.length_encode] at length
    rw [Bytes.length_encode] at length'
    omega
  · intro unusual symbol rest read
    rcases AssetSymbol.unpack_eq_ok read with canonical | internal
    · exact canonical
    · refine absurd ?_ (unusual symbol)
      rw [internal]
      exact List.take_left' (Bytes.length_encode 4 _)

/-- The four bytes of the internal number of the liquid token are read, and eight are written. -/
theorem unpack_internal_number :
    AssetSymbol.unpack [0x13, 0x10, 0x5e, 0x5f] = .ok (.liquid, []) ∧
      AssetSymbol.pack .liquid = [3, 90, 84, 82, 0, 0, 0, 0] := by
  decide

end Zattera
