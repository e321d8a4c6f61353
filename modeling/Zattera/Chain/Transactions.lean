/-
This file models the application of operations and transactions: the dispatch to
the evaluators, and `_apply_transaction`, which checks a transaction, the
authority of its signers, its reference to a recent block and its expiration
before it applies the operations.
-/

import Zattera.Chain.ContentEvaluators

namespace Zattera

open Program

/-! ### Operations -/

/-- `apply_operation`: the evaluator of each kind of operation -/
def applyOperation (producing : Bool) : Operation → Chain Unit
  | .vote op => voteEvaluator op
  | .comment op => commentEvaluator op
  | .transfer op => transferEvaluator op
  | .transferToVesting op => transferToVestingEvaluator op
  | .withdrawVesting op => withdrawVestingEvaluator op
  | .limitOrderCreate op => limitOrderCreateEvaluator op
  | .limitOrderCancel op => limitOrderCancelEvaluator op
  | .feedPublish op => feedPublishEvaluator op
  | .convert op => convertEvaluator op
  | .accountCreate op => accountCreateEvaluator producing op
  | .accountUpdate op => accountUpdateEvaluator op
  | .witnessUpdate op => witnessUpdateEvaluator producing op
  | .accountWitnessVote op => accountWitnessVoteEvaluator op
  | .accountWitnessProxy op => accountWitnessProxyEvaluator op
  | .custom op => customEvaluator producing op
  | .reportOverProduction op => reportOverProductionEvaluator op
  | .deleteComment op => deleteCommentEvaluator op
  | .customJson op => customJsonEvaluator producing op
  | .commentOptions op => commentOptionsEvaluator op
  | .setWithdrawVestingRoute op => setWithdrawVestingRouteEvaluator op
  | .limitOrderCreate2 op => limitOrderCreate2Evaluator op
  | .claimAccount op => claimAccountEvaluator op
  | .createClaimedAccount op => createClaimedAccountEvaluator op
  | .requestAccountRecovery op => requestAccountRecoveryEvaluator op
  | .recoverAccount op => recoverAccountEvaluator op
  | .changeRecoveryAccount op => changeRecoveryAccountEvaluator op
  | .escrowTransfer op => escrowTransferEvaluator op
  | .escrowDispute op => escrowDisputeEvaluator op
  | .escrowRelease op => escrowReleaseEvaluator op
  | .escrowApprove op => escrowApproveEvaluator op
  | .transferToSavings op => transferToSavingsEvaluator op
  | .transferFromSavings op => transferFromSavingsEvaluator op
  | .cancelTransferFromSavings op => cancelTransferFromSavingsEvaluator op
  | .customBinary op => customBinaryEvaluator producing op
  | .declineVotingRights op => declineVotingRightsEvaluator op
  | .resetAccount op => resetAccountEvaluator op
  | .setResetAccount op => setResetAccountEvaluator op
  | .claimRewardBalance op => claimRewardBalanceEvaluator op
  | .delegateVestingShares op => delegateVestingSharesEvaluator op
  | .accountCreateWithDelegation op => accountCreateWithDelegationEvaluator producing op
  | .witnessSetProperties op => witnessSetPropertiesEvaluator op
  -- No evaluator is registered for a virtual operation.
  | .virtualOperation => throw (.assertion "No registered evaluator for operation $\x7bop\x7d")

/-! ### Transactions -/

/-- The flags of `validation_steps`, each of which skips a check. -/
structure SkipFlags where
  witnessSignature : Bool := false
  transactionSignatures : Bool := false
  transactionDupeCheck : Bool := false
  forkDb : Bool := false
  taposCheck : Bool := false
  authorityCheck : Bool := false
  merkleCheck : Bool := false
  undoHistoryCheck : Bool := false
  witnessScheduleCheck : Bool := false
  validate : Bool := false
  undoBlock : Bool := false
  blockLog : Bool := false
  deriving DecidableEq

/-- `get_shared_db_merkle`: block numbers, each with a Merkle root -/
def sharedDbMerkle : List (Nat × Nat) :=
  [(3705111, 0x0a8f0fd5450c3706ec8b8cbad795cd0b3679bf35),
    (3705120, 0x2027edb72b671f7011c8cc4c7a8b59c39b305093),
    (3713940, 0xbf8a1d516927c506ebdbb7b38bef2e992435435f),
    (3714132, 0xe8b77773d268b72c8d650337b8cce360bbe64779),
    (3714567, 0x45af59a8c2d7d4a606151ef5dae03d2dfe13fbdd),
    (3714588, 0xe64275443bdc82f104ac936486d367af8f6d1584),
    (4138790, 0xf65a3a788a2ef52406d8ba5705d7288be228403f),
    (5435426, 0x0b32538b2d22bd3146d54b6e3cb5ae8b9780e8a5)]

/-- Whether `get_shared_db_merkle` has an entry for a block number. -/
def inSharedDbMerkle (blockNum : Nat) : Bool := decide (blockNum ∈ sharedDbMerkle.map Prod.fst)

/-- The getters by which `_apply_transaction` reads the authorities of accounts. -/
def ChainState.authorityGetters (state : ChainState) : AuthorityGetters :=
  let read (field : AccountAuthority → Authority) (name : AccountName) :
      Except ChainError Authority :=
    match state.accountAuthorities.find? name with
    | some auth => .ok (field auth)
    | none => .error .unknownKey
  ⟨read AccountAuthority.active, read AccountAuthority.owner, read AccountAuthority.posting⟩

/-- The authority check of `_apply_transaction`. A missing active authority is let pass when the
block to come is listed in `get_shared_db_merkle`. -/
def checkTransactionAuthority (state : ChainState) (trx : SignedTransaction) :
    Except ChainError Unit :=
  match trx.verifyAuthority state.authorityGetters with
  | .error .txMissingActiveAuth =>
    if inSharedDbMerkle (state.dgp.headBlockNumber + 1) then .ok ()
    else .error .txMissingActiveAuth
  | verdict => verdict

/-- The id in the summary of a recent block. -/
def ChainState.blockSummary (state : ChainState) (place : Nat) : BlockId :=
  (state.blockSummaries.lookup place).getD default

/-- The reference to a recent block and the expiration of a transaction, checked after block one. -/
def checkTransactionTime (skip : SkipFlags) (state : ChainState) (trx : SignedTransaction) :
    Except ChainError Unit := do
  ensure (skip.taposCheck = true ∨
      trx.refBlockPrefix = (state.blockSummary trx.refBlockNum).prefixWord)
    (.assertion "trx.ref_block_prefix == tapos_block_summary.block_id._hash[1]")
  ensure (trx.expiration.toNat ≤ state.dgp.time.toNat + 3600)
    (.assertion "trx.expiration <= now + fc::seconds(ZATTERA_MAX_TIME_UNTIL_EXPIRATION)")
  ensure (state.dgp.time < trx.expiration) (.assertion "now < trx.expiration")

def insertTransaction (trx : SignedTransaction) : Chain Unit :=
  create ChainState.transactions (fun state added => { state with transactions := added })
    ⟨trx.id, trx.expiration⟩

/-- The checks of `_apply_transaction`, before it changes anything. -/
def checkTransaction (skip : SkipFlags) (state : ChainState) (trx : SignedTransaction) :
    Except ChainError Unit := do
  unlessSkipped skip.validate trx.validate
  ensure (skip.transactionDupeCheck = true ∨ state.transactions.find? trx.id = none)
    (.assertion "Duplicate transaction check failed")
  unlessSkipped (skip.transactionSignatures || skip.authorityCheck)
    (checkTransactionAuthority state trx)
  unlessSkipped (state.dgp.headBlockNumber = 0) (checkTransactionTime skip state trx)

/-- `_apply_transaction` -/
def applyTransaction (skip : SkipFlags) (producing : Bool) (trx : SignedTransaction) :
    Chain Unit := do
  let state ← get
  checkTransaction skip state trx
  whenever (skip.transactionDupeCheck = false) (insertTransaction trx)
  forM trx.operations (applyOperation producing)

end Zattera
