/-
This file proves what `_apply_transaction` guarantees about authority. A
transaction it applies without the two flags that skip the check was accepted by
`verify_authority`, except at eight heights: when the block to come is listed in
`get_shared_db_merkle`, one whose active authority is missing passes as well. The
table was made to excuse known blocks by their Merkle roots, but here only the
number is looked up, so at those heights an unsigned transaction is applied.
-/

import Zattera.Chain.Genesis

namespace Zattera

open Program

/-! ### The verdict that lets a transaction pass -/

theorem checkTransactionAuthority_eq_ok {state : ChainState} {trx : SignedTransaction} :
    checkTransactionAuthority state trx = .ok () ↔
      trx.verifyAuthority state.authorityGetters = .ok () ∨
        inSharedDbMerkle (state.dgp.headBlockNumber + 1) = true ∧
          trx.verifyAuthority state.authorityGetters = .error .txMissingActiveAuth := by
  unfold checkTransactionAuthority
  split
  · next missing =>
    rw [missing]
    split
    · next listed => simp [listed]
    · next unlisted => simp [unlisted]
  · next notMissing =>
    constructor
    · exact Or.inl
    · rintro (accepted | ⟨_, missing⟩)
      · exact accepted
      · exact absurd missing notMissing

/-- A transaction that was applied passed all the checks that were not skipped. -/
theorem checkTransaction_of_applyTransaction {skip : SkipFlags} {producing : Bool}
    {trx : SignedTransaction} {before after : ChainState}
    (applied : applyTransaction skip producing trx before = .ok () after) :
    checkTransaction skip before trx = .ok () := by
  have rest := get_bind_eq_ok.mp applied
  obtain ⟨_, _, checked, _⟩ := bind_eq_ok.mp rest
  exact (lift_eq_ok.mp checked).1

theorem checkTransactionAuthority_of_checkTransaction {skip : SkipFlags} {state : ChainState}
    {trx : SignedTransaction} (signatures : skip.transactionSignatures = false)
    (authority : skip.authorityCheck = false)
    (checked : checkTransaction skip state trx = .ok ()) :
    checkTransactionAuthority state trx = .ok () := by
  obtain ⟨_, _, rest⟩ := except_bind_eq_ok.mp checked
  obtain ⟨_, _, rest⟩ := except_bind_eq_ok.mp rest
  obtain ⟨_, authorized, _⟩ := except_bind_eq_ok.mp rest
  simpa [unlessSkipped, signatures, authority] using authorized

/-! ### Applied transactions -/

/-- An applied transaction was accepted by `verify_authority`, or missed an active authority at one
of the listed heights. -/
theorem applyTransaction_authorized {skip : SkipFlags} {producing : Bool}
    {trx : SignedTransaction} {before after : ChainState}
    (signatures : skip.transactionSignatures = false) (authority : skip.authorityCheck = false)
    (applied : applyTransaction skip producing trx before = .ok () after) :
    trx.verifyAuthority before.authorityGetters = .ok () ∨
      before.dgp.headBlockNumber + 1 ∈ sharedDbMerkle.map Prod.fst ∧
        trx.verifyAuthority before.authorityGetters = .error .txMissingActiveAuth := by
  have checked := checkTransaction_of_applyTransaction applied
  have authorized := checkTransactionAuthority_of_checkTransaction signatures authority checked
  rw [checkTransactionAuthority_eq_ok] at authorized
  simpa [inSharedDbMerkle] using authorized

/-- A vote in the name of the genesis account. -/
def genesisVote (signatures : List PublicKey) : SignedTransaction where
  id := 1
  refBlockNum := 0
  refBlockPrefix := 0
  expiration := genesisTime + 60
  operations := [.accountWitnessVote ⟨AccountName.genesis, AccountName.genesis, true⟩]
  signatures := signatures

theorem genesisVote_authorized :
    Finishes (applyTransaction {} false (genesisVote [genesisPublicKey])) genesis ∧
      ((genesisVote [genesisPublicKey]).verifyAuthority genesis.authorityGetters = .ok () ∨
        genesis.dgp.headBlockNumber + 1 ∈ sharedDbMerkle.map Prod.fst ∧
          (genesisVote [genesisPublicKey]).verifyAuthority genesis.authorityGetters =
            .error .txMissingActiveAuth) := by
  have finished : Finishes (applyTransaction {} false (genesisVote [genesisPublicKey])) genesis := by
    decide +kernel
  obtain ⟨_, after, applied⟩ := finished
  exact ⟨⟨_, after, applied⟩, applyTransaction_authorized rfl rfl applied⟩

/-- The genesis state, at another height. -/
def genesisAt (headBlockNumber : Nat) : ChainState :=
  { genesis with dgp := { genesis.dgp with headBlockNumber := headBlockNumber } }

/-- Before each of the listed blocks the vote is applied without a single signature. -/
theorem unsignedVote_applied :
    sharedDbMerkle.all fun entry =>
      Finishes (applyTransaction {} false (genesisVote [])) (genesisAt (entry.1 - 1)) ∧
        (genesisVote []).verifyAuthority (genesisAt (entry.1 - 1)).authorityGetters =
          .error .txMissingActiveAuth := by
  decide +kernel

end Zattera
