/-
This file models the calculation of the Merkle root of a block, which folds the
digests of its transactions in place. The hash functions and the serialisation of
transactions are parameters.
-/

import Zattera.Protocol.Transaction

namespace Zattera

/-- What the calculation takes from cryptography and serialisation. -/
structure Hashing (Packed Digest Checksum : Type) where
  /-- `fc::raw::pack` -/
  pack : SignedTransaction → Packed
  /-- The result of a `digest_type::encoder` -/
  encode : Packed → Digest
  /-- `digest_type::hash` of a pair -/
  hashPair : Digest × Digest → Digest
  /-- `checksum_type::hash` -/
  checksum : Digest → Checksum

namespace Hashing

variable {Packed Digest Checksum : Type} [Inhabited Digest]
  (hashing : Hashing Packed Digest Checksum)

/-- `merkle_digest` -/
def merkleDigest (trx : SignedTransaction) : Digest := hashing.encode (hashing.pack trx)

/-- The loop that hashes ids in pairs: the pair at `i` goes to place `k`. -/
def hashPairs (iMax i k : Nat) (ids : List Digest) : Nat × List Digest :=
  if i < iMax then
    hashPairs iMax (i + 2) (k + 1)
      (ids.set k (hashing.hashPair (ids.getD i default, ids.getD (i + 1) default)))
  else (k, ids)
termination_by iMax - i

theorem hashPairs_fst (iMax i k : Nat) (ids : List Digest) :
    (hashing.hashPairs iMax i k ids).1 = k + (iMax - i + 1) / 2 := by
  fun_induction hashPairs with
  | case1 i k ids more inductionHypothesis =>
    rw [inductionHypothesis]
    omega
  | case2 i k ids done =>
    change k = _
    omega

/-- One round of the loop over the levels: the first `currentNumberOfHashes` ids are hashed in
pairs, and one that is left over moves up. -/
def hashLevel (currentNumberOfHashes : Nat) (ids : List Digest) : Nat × List Digest :=
  let iMax := currentNumberOfHashes - currentNumberOfHashes % 2
  let paired := hashing.hashPairs iMax 0 0 ids
  if currentNumberOfHashes % 2 = 1 then
    (paired.1 + 1, paired.2.set paired.1 (paired.2.getD iMax default))
  else paired

theorem hashLevel_fst (currentNumberOfHashes : Nat) (ids : List Digest) :
    (hashing.hashLevel currentNumberOfHashes ids).1 = (currentNumberOfHashes + 1) / 2 := by
  dsimp only [hashLevel]
  split
  · rw [hashPairs_fst]
    omega
  · rw [hashPairs_fst]
    omega

/-- The loop over the levels of the tree -/
def hashLevels (currentNumberOfHashes : Nat) (ids : List Digest) : List Digest :=
  if 1 < currentNumberOfHashes then
    hashLevels (hashing.hashLevel currentNumberOfHashes ids).1
      (hashing.hashLevel currentNumberOfHashes ids).2
  else ids
termination_by currentNumberOfHashes
decreasing_by
  rw [hashLevel_fst]
  omega

/-- `calculate_merkle_root` -/
def calculateMerkleRoot [Inhabited Checksum] (block : SignedBlock) : Checksum :=
  if block.transactions.length = 0 then default
  else
    let ids := block.transactions.map hashing.merkleDigest
    hashing.checksum ((hashing.hashLevels ids.length ids).getD 0 default)

end Hashing

end Zattera
