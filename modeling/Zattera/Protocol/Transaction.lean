/-
This file models transactions and blocks. What cryptography and serialisation
add to them is carried as data: a transaction knows its id and the keys its
signatures recover to, a block knows its hash, the key that signed it, its size
and the Merkle root calculated from its transactions.
-/

import Zattera.Protocol.Validate

namespace Zattera

open Program

/-! ### Transactions -/

/-- `transaction_id_type` -/
abbrev TransactionId := Nat

/-- `signed_transaction`; `signatures` are the keys the signatures recover to, in order. -/
structure SignedTransaction where
  id : TransactionId
  refBlockNum : Nat
  refBlockPrefix : Nat
  expiration : TimePointSec
  operations : List Operation
  signatures : List PublicKey
  deriving DecidableEq, Repr

namespace SignedTransaction

/-- `validate` -/
def validate (trx : SignedTransaction) : Except ChainError Unit := do
  ensure (0 < trx.operations.length)
    (.assertion "A transaction must have at least one operation")
  forM trx.operations Operation.validate

/-- `get_signature_keys` -/
def getSignatureKeys (trx : SignedTransaction) : Except ChainError (List PublicKey) := do
  ensure trx.signatures.Nodup .txDuplicateSig
  return trx.signatures

/-- `get_required_authorities` -/
def requiredAuthorities (trx : SignedTransaction) : RequiredAuthorities :=
  trx.operations.foldl Operation.addRequiredAuthorities default

/-- `verify_authority` of a transaction -/
def verifyAuthority (trx : SignedTransaction) (getters : AuthorityGetters) :
    Except ChainError Unit := do
  let sigs ← trx.getSignatureKeys
  Zattera.verifyAuthority trx.requiredAuthorities sigs getters

/-- `minimize_required_signatures` -/
def minimizeRequiredSignatures (trx : SignedTransaction) (availableKeys : List PublicKey)
    (getters : AuthorityGetters) (limits : SignLimits) : Except ChainError (List PublicKey) := do
  let sigs ← trx.getSignatureKeys
  Zattera.minimizeRequiredSignatures limits trx.requiredAuthorities sigs availableKeys getters

end SignedTransaction

/-! ### Blocks -/

/-- `block_id_type`: the block number in the first word, the rest of the hash in `hash`. The word
after the number is the reference prefix of transactions. -/
structure BlockId where
  num : Nat
  hash : Nat
  deriving DecidableEq, Repr

instance : Inhabited BlockId := ⟨⟨0, 0⟩⟩

/-- `_hash[1]`, the word a transaction's `ref_block_prefix` is compared with. -/
def BlockId.prefixWord (id : BlockId) : Nat := id.hash % 4294967296

/-- `version`, a number ordered by major, hardfork and release part. -/
abbrev Version := Nat

/-- `hardfork_version_vote` -/
structure HardforkVersionVote where
  hfVersion : Version
  hfTime : TimePointSec
  deriving DecidableEq, Repr

/-- `block_header_extensions` -/
inductive BlockHeaderExtension where
  | void
  | version (reported : Version)
  | hardforkVersionVote (vote : HardforkVersionVote)
  deriving DecidableEq, Repr

/-- `signed_block` -/
structure SignedBlock where
  previous : BlockId
  timestamp : TimePointSec
  witness : AccountName
  transactionMerkleRoot : Nat
  extensions : List BlockHeaderExtension
  transactions : List SignedTransaction
  hash : Nat
  signee : PublicKey
  calculatedMerkleRoot : Nat
  size : Nat
  deriving DecidableEq, Repr

namespace SignedBlock

/-- `block_num` -/
def blockNum (block : SignedBlock) : Nat := block.previous.num + 1

/-- `id` -/
def id (block : SignedBlock) : BlockId := ⟨block.blockNum, block.hash⟩

end SignedBlock

end Zattera
