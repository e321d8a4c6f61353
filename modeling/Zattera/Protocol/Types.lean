/-
This file models the basic types of the protocol: account names, keys, texts,
times and authorities. Hashes, signatures and keys are only compared by the
modelled code, so each is represented by a number.
-/

import Mathlib.Algebra.Order.Ring.Nat
import Zattera.Protocol.Amount

namespace Zattera

open Program

/-! ### Account names -/

/-- `account_name_type`, a `fixed_string< 16 >`: sixteen bytes read as one big-endian number, so
that numbers compare as the strings do. -/
structure AccountName where
  data : Nat
  deriving DecidableEq, Repr

namespace AccountName

instance : Inhabited AccountName := ⟨⟨0⟩⟩

instance : LT AccountName := ⟨fun a b => a.data < b.data⟩

instance : DecidableRel (fun a b : AccountName => a < b) := fun a b =>
  inferInstanceAs (Decidable (a.data < b.data))

/-- The first sixteen bytes of a string, padded with zero bytes. -/
def ofBytes (bytes : List Nat) : AccountName :=
  ⟨((bytes ++ List.replicate 16 0).take 16).foldl (fun data byte => data * 256 + byte) 0⟩

def ofChars (characters : List Char) : AccountName := ofBytes (characters.map Char.toNat)

/-- The bytes of the string up to the first zero byte. -/
def bytes (name : AccountName) : List Nat :=
  ((List.range 16).map fun place => name.data / 256 ^ (15 - place) % 256).takeWhile (· ≠ 0)

/-- `size` -/
def size (name : AccountName) : Nat := name.bytes.length

/-- The name after a conversion to `std::string`, which loses what follows a zero byte. -/
def toStdString (name : AccountName) : AccountName := ofBytes name.bytes

/-- `ZATTERA_NULL_ACCOUNT`: nobody can access its funds. -/
def null : AccountName := ofChars ['n', 'u', 'l', 'l']

/-- `ZATTERA_TEMP_ACCOUNT`: anybody can access its funds. -/
def temp : AccountName := ofChars ['t', 'e', 'm', 'p']

/-- `ZATTERA_GENESIS_WITNESS_NAME` -/
def genesis : AccountName := ofChars ['g', 'e', 'n', 'e', 's', 'i', 's']

/-- `ZATTERA_PROXY_TO_SELF_ACCOUNT`, also the name of no account. -/
def proxyToSelf : AccountName := ⟨0⟩

/-- `ZATTERA_ROOT_POST_PARENT` -/
def rootPostParent : AccountName := ⟨0⟩

end AccountName

def isLowerCase (byte : Nat) : Bool := decide (97 ≤ byte ∧ byte ≤ 122)

def isDigit (byte : Nat) : Bool := decide (48 ≤ byte ∧ byte ≤ 57)

/-- One dot-separated label of an account name. -/
def isValidLabel (label : List Nat) : Bool :=
  match label with
  | [] => false
  | first :: rest =>
    decide (3 ≤ label.length) && isLowerCase first &&
      (rest.getLast?.any fun last => isLowerCase last || isDigit last) &&
      rest.dropLast.all fun byte => isLowerCase byte || isDigit byte || decide (byte = 45)

/-- `is_valid_account_name` -/
def isValidAccountName (name : List Nat) : Bool :=
  decide (3 ≤ name.length) && decide (name.length ≤ 16) && (name.splitOn 46).all isValidLabel

/-- `validate_account_name` -/
def validateAccountName (name : AccountName) : Except ChainError Unit :=
  ensure (isValidAccountName name.bytes) (.assertion "Account name $\x7bn\x7d is invalid")

/-! ### Times, texts and keys -/

/-- `time_point_sec`, whose arithmetic wraps. -/
abbrev TimePointSec := UInt32

namespace TimePointSec

/-- `time_point_sec::maximum()` -/
def maximum : TimePointSec := 4294967295

/-- `time_point_sec::min()` -/
def min : TimePointSec := 0

end TimePointSec

/-- A string as its bytes. -/
abbrev Text := List UInt8

/-- A byte that continues a multi-byte sequence. -/
def isTrail (byte : UInt8) : Bool := byte &&& 0xc0 == 0x80

/-- `fc::is_utf8`: sequences are complete, shortest, and no surrogate or out of range. -/
def isUtf8 : Text → Bool
  | [] => true
  | a :: rest =>
    if a < 0x80 then isUtf8 rest
    else match rest with
    | [] => false
    | b :: rest =>
      if 0xc2 ≤ a && a < 0xe0 then isTrail b && isUtf8 rest
      else match rest with
      | [] => false
      | c :: rest =>
        if 0xe0 ≤ a && a < 0xf0 then
          isTrail b && isTrail c && (a != 0xe0 || 0xa0 ≤ b) && (a != 0xed || b < 0xa0) &&
            isUtf8 rest
        else match rest with
        | [] => false
        | d :: rest =>
          0xf0 ≤ a && a < 0xf5 && isTrail b && isTrail c && isTrail d &&
            (a != 0xf0 || 0x90 ≤ b) && (a != 0xf4 || b < 0x90) && isUtf8 rest

/-- `validate_permlink` -/
def validatePermlink (permlink : Text) : Except ChainError Unit := do
  ensure (permlink.length < 256) (.assertion "permlink is too long")
  ensure (isUtf8 permlink) (.assertion "permlink not formatted in UTF8")

/-- A text that should be JSON, with the verdict of the JSON parser on it. -/
structure JsonText where
  text : Text
  isValid : Bool
  deriving DecidableEq, Repr

/-- The checks most operations make of JSON metadata that is not empty. -/
def JsonText.validate (json : JsonText) : Except ChainError Unit :=
  if json.text = [] then .ok ()
  else do
    ensure (isUtf8 json.text) (.assertion "JSON Metadata not formatted in UTF8")
    ensure json.isValid (.assertion "JSON Metadata not valid JSON")

/-- `public_key_type`; the default key is zero and signs nothing. -/
structure PublicKey where
  data : Nat
  deriving DecidableEq, Repr

instance : Inhabited PublicKey := ⟨⟨0⟩⟩

/-! ### Authorities -/

/-- `authority`; the two maps are kept in key order. -/
structure Authority where
  weightThreshold : Nat
  accountAuths : List (AccountName × Nat)
  keyAuths : List (PublicKey × Nat)
  deriving DecidableEq, Repr

namespace Authority

instance : Inhabited Authority := ⟨⟨0, [], []⟩⟩

/-- `authority( 1, key, 1 )` -/
def ofKey (key : PublicKey) : Authority := ⟨1, [], [(key, 1)]⟩

/-- `authority( 1, account, 1 )` -/
def ofAccount (account : AccountName) : Authority := ⟨1, [(account, 1)], []⟩

/-- `is_impossible` -/
def isImpossible (auth : Authority) : Bool :=
  decide ((auth.accountAuths.map Prod.snd).sum + (auth.keyAuths.map Prod.snd).sum <
    auth.weightThreshold)

/-- `validate` -/
def validate (auth : Authority) : Except ChainError Unit :=
  ensure (auth.accountAuths.all fun item => isValidAccountName item.1.bytes)
    (.assertion "is_valid_account_name( item.first )")

end Authority

/-- `validate_auth_size` -/
def validateAuthSize (auth : Authority) : Except ChainError Unit :=
  ensure (auth.accountAuths.length + auth.keyAuths.length ≤ 40)
    (.assertion "Authority membership exceeded. Max: 10 Current: $\x7bn\x7d")

end Zattera
