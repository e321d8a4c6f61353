/-
This file models `fixed_string`, which keeps a short string in machine words. The
bytes are copied over the memory of the words, and each word is then turned from
big-endian to the order of the host, so that words compare as bytes do. The host
is little-endian, and memory holds the fields of a structure in their order.
-/

import Zattera.Lib.Bytes
import Zattera.Protocol.Types

namespace Zattera

/-- What `fixed_string_impl` asks of its storage: the bytes it occupies, `endian_reverse`, and the
operator `<`. -/
class Storage (S : Type) extends Inhabited S where
  /-- `sizeof` -/
  size : Nat
  load : Text → S
  store : S → Text
  endianReverse : S → S
  less : S → S → Bool

namespace Storage

instance : Storage UInt64 where
  size := 8
  load bytes := UInt64.ofNat (Bytes.decode bytes)
  store word := Bytes.encode 8 word.toNat
  endianReverse word := UInt64.ofNat (Bytes.decode (Bytes.encode 8 word.toNat).reverse)
  less a b := decide (a < b)

end Storage

/-- `fc::uint128` as it lies in memory -/
structure Uint128Layout where
  hi : UInt64
  lo : UInt64
  deriving DecidableEq

instance : Storage Uint128Layout where
  default := ⟨0, 0⟩
  size := 16
  load bytes := ⟨Storage.load (bytes.take 8), Storage.load (bytes.drop 8)⟩
  store u := Storage.store u.hi ++ Storage.store u.lo
  endianReverse u := ⟨Storage.endianReverse u.hi, Storage.endianReverse u.lo⟩
  less a b := if a.hi = b.hi then decide (a.lo < b.lo) else decide (a.hi < b.hi)

/-- `fc::erpair` -/
structure Erpair (A B : Type) where
  first : A
  second : B
  deriving DecidableEq

instance (A B : Type) [Storage A] [Storage B] : Storage (Erpair A B) where
  default := ⟨default, default⟩
  size := Storage.size A + Storage.size B
  load bytes :=
    ⟨Storage.load (bytes.take (Storage.size A)), Storage.load (bytes.drop (Storage.size A))⟩
  store p := Storage.store p.first ++ Storage.store p.second
  endianReverse p := ⟨Storage.endianReverse p.first, Storage.endianReverse p.second⟩
  less a b := Storage.less a.first b.first ||
    (!Storage.less b.first a.first && Storage.less a.second b.second)

/-- `fixed_string_impl` -/
structure FixedString (S : Type) where
  data : S
  deriving DecidableEq

namespace FixedString

variable {S : Type} [Storage S]

/-- The constructor from a string: `memcpy` over the memory of new storage, and `big_to_native`. -/
def ofStdString (str : Text) : FixedString S :=
  let d : S := default
  let memory := if str.length ≤ Storage.size S then str ++ (Storage.store d).drop str.length
    else str.take (Storage.size S)
  ⟨Storage.endianReverse (Storage.load memory)⟩

/-- The conversion to a string: `native_to_big`, and the bytes that `strnlen` counts. -/
def toStdString (str : FixedString S) : Text :=
  (Storage.store (Storage.endianReverse str.data)).takeWhile (· ≠ 0)

instance : LT (FixedString S) := ⟨fun a b => Storage.less a.data b.data⟩

end FixedString

/-- The sizes that `fixed_string_impl_for_size` has storage for -/
inductive FixedStringSize where
  | bytes16 | bytes24 | bytes32

namespace FixedStringSize

def bytes : FixedStringSize → Nat
  | bytes16 => 16
  | bytes24 => 24
  | bytes32 => 32

/-- `fixed_string_impl_for_size` -/
abbrev StorageType : FixedStringSize → Type
  | bytes16 => Uint128Layout
  | bytes24 => Erpair Uint128Layout UInt64
  | bytes32 => Erpair Uint128Layout Uint128Layout

instance : (N : FixedStringSize) → Storage N.StorageType
  | bytes16 => inferInstanceAs (Storage Uint128Layout)
  | bytes24 => inferInstanceAs (Storage (Erpair Uint128Layout UInt64))
  | bytes32 => inferInstanceAs (Storage (Erpair Uint128Layout Uint128Layout))

end FixedStringSize

end Zattera
