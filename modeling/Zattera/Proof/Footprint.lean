/-
This file says which aspects of the state, and so which of its parts, each
operation and each step of a block may write: its footprint. What lies outside the
footprint is as it was, so that an invariant of one table need only be followed
through the few programs that write the table.
-/

import Zattera.Proof.Writes

namespace Zattera

open Program Faceted

set_option synthInstance.maxSize 4096

variable {producing : Bool} {skip : SkipFlags}

/-- Every part of the state that is not listed is as it was. -/
def Within (parts : List Part) (s t : ChainState) : Prop :=
  ∀ part ∉ parts, part.get t = part.get s

instance (parts : List Part) : Std.Refl (Within parts) := ⟨fun _ _ _ => rfl⟩

instance (parts : List Part) : IsTrans ChainState (Within parts) :=
  ⟨fun _ _ _ first second part outside => (second part outside).trans (first part outside)⟩

/-- The part is among those that may be written. -/
class Allows (parts : List Part) (part : Part) : Prop where
  mem : part ∈ parts

instance (part : Part) (rest : List Part) : Allows (part :: rest) part := ⟨List.mem_cons_self⟩

instance (part first : Part) (rest : List Part) [allowed : Allows rest part] :
    Allows (first :: rest) part :=
  ⟨List.mem_cons_of_mem first allowed.mem⟩

/-- An aspect of one of the parts. -/
def Covered (parts : List Part) (aspect : Aspect) : Prop := aspect.home ∈ parts

section Covered

variable (parts : List Part)

instance : DecidablePred (Covered parts) :=
  fun aspect => inferInstanceAs (Decidable (aspect.home ∈ parts))

instance : Overlooks (Within parts) (Covered parts) := ⟨fun same part outside => same (.part part) outside⟩

instance (part : Part) [allowed : Allows parts part] : Whole (Covered parts) part where
  each aspect home := by
    subst home
    exact allowed.mem

end Covered

/-! ### Operations -/

/-- Parts that hold no balances. -/
abbrev Part.records : List Part :=
  [.accountAuthorities, .witnesses, .witnessVotes, .witnessSchedule, .comments, .nextCommentId,
    .commentContents, .commentVotes, .vestingDelegations, .delegationExpirations, .nextExpirationId,
    .ownerHistories, .nextHistoryId, .recoveryRequests, .changeRecoveryRequests, .declineRequests,
    .transactions, .blockSummaries, .hardforks]

/-- All parts but the accounts and the global properties. -/
abbrev Part.tables : List Part :=
  .feedHistory :: .limitOrders :: .convertRequests :: .escrows :: .savingsWithdraws ::
    .withdrawRoutes :: .rewardFunds :: Part.records

namespace Aspect

instance (first second : List Aspect) (aspect : Aspect) [listed : Aside (Among first) aspect] :
    Aside (Among (first ++ second)) aspect :=
  ⟨List.mem_append_left second listed.holds⟩

instance (first second : List Aspect) (aspect : Aspect) [listed : Aside (Among second) aspect] :
    Aside (Among (first ++ second)) aspect :=
  ⟨List.mem_append_right first listed.holds⟩

/-- What interest on dollars changes beside the holding. -/
abbrev interest : List Aspect :=
  [.part .accounts, .part .dgp, .global .supply, .global .virtual]

abbrev savings : List Aspect := [.account .savings, .account .savingsDollars]

/-- What changes with a balance. -/
abbrev balance : List Aspect := [.account .liquid, .account .dollars, .account .shares] ++ interest

/-- What changes with the votes an account has to give. -/
abbrev votes : List Aspect :=
  [.part .accounts, .account .proxied, .part .witnesses, .witness .votes, .witness .lap]

abbrev vesting : List Aspect := .global .fund :: balance ++ votes

/-- What changes with a new account. -/
abbrev creation : List Aspect :=
  [.names, .part .accounts, .account .record, .account .power, .account .received,
    .part .accountAuthorities]

/-- The totals in the global properties. -/
abbrev totals : List Aspect :=
  [.part .dgp, .global .supply, .global .virtual, .global .fund, .global .pending, .global .rates]

end Aspect

/-- The aspects an operation may write. -/
def Operation.aspects : Operation → List Aspect
  | .vote _ => [.part .accounts, .account .power, .part .comments, .part .commentVotes]
  | .comment _ => [.part .accounts, .account .record, .part .comments, .part .nextCommentId,
      .part .commentContents]
  | .deleteComment _ => [.part .comments, .part .commentVotes]
  | .commentOptions _ => [.part .comments]
  | .transfer _ => Aspect.balance
  | .transferToSavings _ => Aspect.savings ++ Aspect.balance
  | .transferFromSavings _ | .cancelTransferFromSavings _ =>
    .account .requests :: .part .savingsWithdraws :: Aspect.savings ++ Aspect.interest
  | .transferToVesting _ => Aspect.vesting
  | .withdrawVesting _ => [.part .accounts, .account .withdrawal]
  | .setWithdrawVestingRoute _ => [.part .accounts, .account .record, .part .withdrawRoutes]
  | .limitOrderCreate _ | .limitOrderCreate2 _ | .limitOrderCancel _ =>
    .part .limitOrders :: Aspect.balance
  | .convert _ => .part .convertRequests :: Aspect.balance
  | .escrowTransfer _ | .escrowApprove _ | .escrowRelease _ => .part .escrows :: Aspect.balance
  | .escrowDispute _ => [.part .escrows]
  | .feedPublish _ => [.part .witnesses, .witness .price]
  | .witnessSetProperties _ => [.part .witnesses, .witness .price, .witness .record]
  | .witnessUpdate _ => [.owners, .part .witnesses, .witness .record]
  | .accountCreate _ => Aspect.creation ++ Aspect.vesting
  | .accountCreateWithDelegation _ =>
    .account .delegated :: .part .vestingDelegations :: Aspect.creation ++ Aspect.vesting
  | .claimAccount _ => .account .record :: Aspect.balance
  | .createClaimedAccount _ => Aspect.creation
  | .accountUpdate _ => [.part .accounts, .account .record, .part .accountAuthorities,
      .part .ownerHistories, .part .nextHistoryId]
  | .recoverAccount _ => [.part .accounts, .account .record, .part .accountAuthorities,
      .part .ownerHistories, .part .nextHistoryId, .part .recoveryRequests]
  | .requestAccountRecovery _ => [.part .recoveryRequests]
  | .changeRecoveryAccount _ => [.part .changeRecoveryRequests]
  | .accountWitnessVote _ => .account .ballots :: .part .witnessVotes :: Aspect.votes
  | .accountWitnessProxy _ =>
    .account .proxy :: .account .ballots :: .part .witnessVotes :: Aspect.votes
  | .declineVotingRights _ => [.part .declineRequests]
  | .claimRewardBalance _ =>
    .account .rewards :: .account .owed :: .global .pending :: Aspect.vesting
  | .delegateVestingShares _ => [.part .accounts, .account .delegated, .account .received,
      .part .vestingDelegations, .part .delegationExpirations, .part .nextExpirationId]
  | .custom _ | .customJson _ | .customBinary _ | .reportOverProduction _ | .resetAccount _
  | .setResetAccount _ | .virtualOperation => []

/-- An operation writes its aspects and nothing else. -/
theorem beside_applyOperation (producing : Bool) (op : Operation) :
    Respects (Beside (Among op.aspects)) (applyOperation producing op) := by
  cases op
  all_goals dsimp only [Operation.aspects, applyOperation, voteEvaluator, commentEvaluator,
    transferEvaluator,
    transferToVestingEvaluator, withdrawVestingEvaluator, limitOrderCreateEvaluator,
    limitOrderCancelEvaluator, feedPublishEvaluator, convertEvaluator, accountCreateEvaluator,
    accountUpdateEvaluator, witnessUpdateEvaluator, accountWitnessVoteEvaluator,
    accountWitnessProxyEvaluator, customEvaluator, reportOverProductionEvaluator,
    deleteCommentEvaluator, customJsonEvaluator, commentOptionsEvaluator,
    setWithdrawVestingRouteEvaluator, limitOrderCreate2Evaluator, claimAccountEvaluator,
    createClaimedAccountEvaluator, requestAccountRecoveryEvaluator, recoverAccountEvaluator,
    changeRecoveryAccountEvaluator, escrowTransferEvaluator, escrowDisputeEvaluator,
    escrowReleaseEvaluator, escrowApproveEvaluator, transferToSavingsEvaluator,
    transferFromSavingsEvaluator, cancelTransferFromSavingsEvaluator, customBinaryEvaluator,
    declineVotingRightsEvaluator, resetAccountEvaluator, setResetAccountEvaluator,
    claimRewardBalanceEvaluator, delegateVestingSharesEvaluator,
    accountCreateWithDelegationEvaluator, witnessSetPropertiesEvaluator,
    -- The parts of evaluators that have names of their own.
    castVote, changeVote, createComment, editComment, setBeneficiaries, createLimitOrder,
    applyOrder, storeWithdrawRoute, shrinkDelegation, requireShrinking]
  all_goals repeat first
    | with_reducible refine .step ?_ fun _ => ?_
    | with_reducible refine .guarded fun _ => ?_
    | infer_instance
    | exact overlooked_updateAccount [.record] fun _ => rfl
    | exact overlooked_updateAccount [.requests] fun _ => rfl
    | exact overlooked_updateAccount [.withdrawal] fun _ => rfl
    | exact overlooked_updateAccount [.ballots] fun _ => rfl
    | exact overlooked_updateAccount [.proxy] fun _ => rfl
    | exact overlooked_modifyAccount [.record] fun _ => .bind fun _ => .pure rfl
    | exact overlooked_modifyAccount [.liquid] fun _ => .bind fun _ => .pure rfl
    | exact overlooked_modifyAccount [.liquid, .record] fun _ => .bind fun _ => .bind fun _ => .pure rfl
    | exact overlooked_modifyAccount [.liquid, .delegated] fun _ =>
        .bind fun _ => .bind fun _ => .pure rfl
    | exact overlooked_modifyAccount [.shares, .owed] fun _ =>
        .bind fun _ => .bind fun _ => .bind fun _ => .pure rfl
    | exact overlooked_modifyDgp [.fund, .pending] fun _ =>
        .bind fun _ => .bind fun _ => .bind fun _ => .bind fun _ => .pure rfl
    | exact overlooked_updateWitness [.record] fun _ => rfl
    | exact overlooked_updateWitness [.price] fun _ => rfl
    | exact overlooked_updateWitness [.price, .record] fun _ => rfl
    | exact overlooked_insertWitness rfl
    | exact overlooked_write .comments rfl
    | exact overlooked_write .commentContents rfl
    | exact overlooked_write .commentVotes rfl
    | exact overlooked_write .witnessVotes rfl
    | exact overlooked_write .withdrawRoutes rfl
    | exact overlooked_write .vestingDelegations rfl
    | exact overlooked_write .recoveryRequests rfl
    | exact overlooked_write .changeRecoveryRequests rfl
    | exact overlooked_write .declineRequests rfl
    | split

/-- The parts an operation may write. -/
def Operation.footprint : Operation → List Part
  | .vote _ => [.accounts, .comments, .commentVotes]
  | .comment _ => [.accounts, .comments, .nextCommentId, .commentContents]
  | .deleteComment _ => [.comments, .commentVotes]
  | .commentOptions _ => [.comments]
  | .transfer _ | .transferToSavings _ => [.accounts, .dgp]
  | .transferFromSavings _ | .cancelTransferFromSavings _ => [.accounts, .dgp, .savingsWithdraws]
  | .transferToVesting _ => [.accounts, .dgp, .witnesses]
  | .withdrawVesting _ => [.accounts]
  | .setWithdrawVestingRoute _ => [.accounts, .withdrawRoutes]
  | .limitOrderCreate _ | .limitOrderCreate2 _ | .limitOrderCancel _ =>
    [.accounts, .dgp, .limitOrders]
  | .convert _ => [.accounts, .dgp, .convertRequests]
  | .escrowTransfer _ | .escrowApprove _ | .escrowRelease _ => [.accounts, .dgp, .escrows]
  | .escrowDispute _ => [.escrows]
  | .feedPublish _ | .witnessUpdate _ | .witnessSetProperties _ => [.witnesses]
  | .accountCreate _ => [.accounts, .dgp, .witnesses, .accountAuthorities]
  | .accountCreateWithDelegation _ =>
    [.accounts, .dgp, .witnesses, .accountAuthorities, .vestingDelegations]
  | .claimAccount _ => [.accounts, .dgp]
  | .createClaimedAccount _ => [.accounts, .accountAuthorities]
  | .accountUpdate _ => [.accounts, .accountAuthorities, .ownerHistories, .nextHistoryId]
  | .recoverAccount _ =>
    [.accounts, .accountAuthorities, .ownerHistories, .nextHistoryId, .recoveryRequests]
  | .requestAccountRecovery _ => [.recoveryRequests]
  | .changeRecoveryAccount _ => [.changeRecoveryRequests]
  | .accountWitnessVote _ => [.accounts, .witnesses, .witnessVotes]
  | .accountWitnessProxy _ => [.accounts, .witnesses, .witnessVotes]
  | .declineVotingRights _ => [.declineRequests]
  | .claimRewardBalance _ => [.accounts, .dgp, .witnesses]
  | .delegateVestingShares _ =>
    [.accounts, .vestingDelegations, .delegationExpirations, .nextExpirationId]
  | .custom _ | .customJson _ | .customBinary _ | .reportOverProduction _ | .resetAccount _
  | .setResetAccount _ | .virtualOperation => []

theorem within_of_aspects {α : Type} {x : Chain α} {aspects : List Aspect} {parts : List Part}
    (beside : Respects (Beside (Among aspects)) x) (homes : ∀ aspect ∈ aspects, aspect.home ∈ parts) :
    Respects (Within parts) x :=
  beside.mono fun _ _ same part outside =>
    same (.part part) fun member => outside (homes (.part part) member)

/-- An operation writes its footprint and nothing else. -/
instance within_applyOperation (producing : Bool) (op : Operation) :
    Respects (Within op.footprint) (applyOperation producing op) := by
  refine within_of_aspects (beside_applyOperation producing op) ?_
  cases op <;> exact of_decide_eq_true rfl

/-! ### Steps of a block -/

/-- What a block does beside its transactions, in pieces. -/
inductive BlockStep where
  | currentWitness (block : SignedBlock)
  | headerExtensions (block : SignedBlock)
  | globalDynamicData (skip : SkipFlags) (block : SignedBlock)
  | signingWitness (name : AccountName) (block : SignedBlock)
  | lastIrreversibleNum
  | blockSummary (block : SignedBlock)
  | expiredTransactions
  | expiredOrders
  | expiredDelegations
  | witnessSchedule
  | medianFeed
  | virtualSupply
  | nullAccountBalance
  | funds
  | conversions
  | commentCashout
  | vestingWithdrawals
  | savingsWithdraws
  | accountRecovery
  | escrowRatification
  | declinedVotingRights

namespace BlockStep

def run : BlockStep → Chain Unit
  | currentWitness block => modify fun state =>
      { state with dgp := { state.dgp with currentWitness := block.witness } }
  | headerExtensions block => processHeaderExtensions block
  | globalDynamicData skip block => updateGlobalDynamicData skip block
  | signingWitness name block => updateSigningWitness name block
  | lastIrreversibleNum => updateLastIrreversibleNum
  | blockSummary block => createBlockSummary block
  | expiredTransactions => clearExpiredTransactions
  | expiredOrders => clearExpiredOrders
  | expiredDelegations => clearExpiredDelegations
  | witnessSchedule => updateWitnessSchedule
  | medianFeed => updateMedianFeed
  | virtualSupply => updateVirtualSupply
  | nullAccountBalance => clearNullAccountBalance
  | funds => processFunds
  | conversions => processConversions
  | commentCashout => processCommentCashout
  | vestingWithdrawals => processVestingWithdrawals
  | savingsWithdraws => processSavingsWithdraws
  | accountRecovery => accountRecoveryProcessing
  | escrowRatification => expireEscrowRatification
  | declinedVotingRights => processDeclineVotingRights

/-- The parts a step of a block may write. -/
def footprint : BlockStep → List Part
  | currentWitness _ | lastIrreversibleNum | virtualSupply => [.dgp]
  | headerExtensions _ | signingWitness _ _ => [.witnesses]
  | globalDynamicData _ _ => [.witnesses, .dgp]
  | blockSummary _ => [.blockSummaries]
  | expiredTransactions => [.transactions]
  | expiredOrders => [.accounts, .dgp, .limitOrders]
  | expiredDelegations => [.accounts, .delegationExpirations]
  | witnessSchedule => [.witnesses, .witnessSchedule, .dgp, .hardforks]
  | medianFeed => [.feedHistory]
  | nullAccountBalance => [.accounts, .dgp]
  | funds => [.accounts, .dgp, .witnesses, .rewardFunds]
  | conversions => [.accounts, .dgp, .convertRequests]
  | commentCashout => [.accounts, .dgp, .witnesses, .rewardFunds, .comments, .commentVotes]
  | vestingWithdrawals => [.accounts, .dgp, .witnesses]
  | savingsWithdraws => [.accounts, .dgp, .savingsWithdraws]
  | accountRecovery => [.accounts, .ownerHistories, .recoveryRequests, .changeRecoveryRequests]
  | escrowRatification => [.accounts, .dgp, .escrows]
  | declinedVotingRights => [.accounts, .witnesses, .witnessVotes, .declineRequests]

/-- The aspects a step of a block may write. -/
def aspects : BlockStep → List Aspect
  | currentWitness _ => [.part .dgp, .global .producer]
  | lastIrreversibleNum => [.part .dgp, .global .irreversible]
  | virtualSupply => [.part .dgp, .global .virtual, .global .rates]
  | headerExtensions _ => [.part .witnesses, .witness .record]
  | signingWitness _ _ => [.part .witnesses, .witness .record, .witness .confirmed]
  | globalDynamicData _ _ =>
    [.part .witnesses, .witness .record, .part .dgp, .global .head, .global .slots]
  | blockSummary _ => [.part .blockSummaries]
  | expiredTransactions => [.part .transactions]
  | expiredOrders => .part .limitOrders :: Aspect.balance
  | expiredDelegations => [.part .accounts, .account .delegated, .part .delegationExpirations]
  | witnessSchedule => [.part .witnesses, .witness .schedule, .witness .lap, .part .witnessSchedule,
      .part .hardforks, .part .dgp, .global .rates]
  | medianFeed => [.part .feedHistory]
  | nullAccountBalance => .account .rewards :: .account .owed :: .global .fund :: .global .pending ::
      Aspect.savings ++ Aspect.balance
  | funds => .part .rewardFunds :: Aspect.vesting
  | conversions => .part .convertRequests :: Aspect.balance
  | commentCashout => .part .rewardFunds :: .part .comments :: .part .commentVotes ::
      .account .record :: .account .rewards :: .account .owed :: .global .pending :: Aspect.balance
  | vestingWithdrawals => .account .withdrawal :: Aspect.vesting
  | savingsWithdraws => .account .requests :: .part .savingsWithdraws :: Aspect.balance
  | accountRecovery => [.part .accounts, .account .record, .part .ownerHistories,
      .part .recoveryRequests, .part .changeRecoveryRequests]
  | escrowRatification => .part .escrows :: Aspect.balance
  | declinedVotingRights => .account .record :: .account .proxy :: .account .ballots ::
      .part .witnessVotes :: .part .declineRequests :: Aspect.votes

end BlockStep

/-- A step of a block writes its aspects and nothing else. -/
theorem beside_blockStep (step : BlockStep) : Respects (Beside (Among step.aspects)) step.run := by
  cases step with
  | currentWitness block =>
    dsimp only [BlockStep.aspects]
    exact overlooked_produced block.witness
  | _ => dsimp only [BlockStep.aspects, BlockStep.run]; infer_instance

/-- A step of a block writes its footprint and nothing else. -/
instance within_blockStep (step : BlockStep) : Respects (Within step.footprint) step.run := by
  refine within_of_aspects (beside_blockStep step) ?_
  cases step <;> exact of_decide_eq_true rfl

section Overlooked

variable {R : ChainState → ChainState → Prop} {aside : Aspect → Prop} [overlooks : Overlooks R aside]

/-- A program respects a relation that overlooks all it writes. -/
theorem respects_of_aspects {α : Type} {x : Chain α} {aspects : List Aspect}
    (beside : Respects (Beside (Among aspects)) x) (overlooked : ∀ aspect ∈ aspects, aside aspect) :
    Respects R x :=
  beside.mono fun _ _ same => overlooks.holds fun aspect seen =>
    same aspect fun member => seen (overlooked aspect member)

end Overlooked

/-! ### What is neither accounts, witnesses nor global properties -/

/-- The state without accounts, witnesses and global properties. -/
def ChainState.others (state : ChainState) : ChainState :=
  { state with dgp := default, accounts := .empty, witnesses := .empty }

/-- A field that does not depend on them is as it was. -/
theorem keptField {α β : Type} {x : Chain α} {s t : ChainState} {a : α}
    [Respects (Same ChainState.others) x] (field : ChainState → β)
    (ignores : ∀ state : ChainState, field state.others = field state)
    (run : x s = .ok a t) : field t = field s := by
  have same : t.others = s.others := Respects.related (R := Same ChainState.others) s a t run
  rw [← ignores, same, ignores]

instance : Overlooks (Same ChainState.others) (Covered [.dgp, .accounts, .witnesses]) where
  holds same := Part.eq_of_get fun part => by
    have seen := same (.part part)
    cases part <;> first | rfl | exact seen (by decide)

/-! ### Operations that move balances -/

def Operation.isPayment : Operation → Bool
  | .transfer _ | .transferToSavings _ | .transferFromSavings _ | .cancelTransferFromSavings _
  | .transferToVesting _ | .limitOrderCreate _ | .limitOrderCreate2 _ | .limitOrderCancel _
  | .convert _ | .escrowTransfer _ | .escrowApprove _ | .escrowRelease _ | .accountCreate _
  | .accountCreateWithDelegation _ | .claimAccount _ => true
  | _ => false

/-- A relation that the adjustment of balances respects is respected by all operations that move
balances, if it overlooks what else they write. -/
theorem respects_payment {R : ChainState → ChainState → Prop} [Std.Refl R] [IsTrans ChainState R]
    {aside : Aspect → Prop} [Overlooks R aside] [Aside aside (.part .limitOrders)]
    [Aside aside (.part .convertRequests)] [Aside aside (.part .escrows)]
    [Aside aside (.part .savingsWithdraws)] [Aside aside (.part .vestingDelegations)]
    [Aside aside (.part .accounts)] [Aside aside (.account .liquid)]
    [Aside aside (.account .requests)] [Aside aside (.account .delegated)]
    [Aside aside (.account .record)] [∀ name delta, Respects R (adjustBalance name delta)]
    [∀ name delta, Respects R (adjustSavingsBalance name delta)]
    [∀ toAccount liquid, Respects R (createVesting toAccount liquid)]
    [∀ name creator owner active posting received,
      Respects R (createAccount name creator owner active posting received)] {op : Operation}
    (payment : op.isPayment) : Respects R (applyOperation producing op) := by
  cases op
  all_goals try exact absurd payment Bool.false_ne_true
  all_goals dsimp only [applyOperation, transferEvaluator, transferToSavingsEvaluator,
    transferFromSavingsEvaluator, cancelTransferFromSavingsEvaluator, transferToVestingEvaluator,
    limitOrderCreateEvaluator, limitOrderCreate2Evaluator, limitOrderCancelEvaluator,
    createLimitOrder, applyOrder, convertEvaluator, escrowTransferEvaluator, escrowApproveEvaluator,
    escrowReleaseEvaluator, accountCreateEvaluator, accountCreateWithDelegationEvaluator,
    claimAccountEvaluator]
  all_goals repeat first
    | with_reducible refine .step ?_ fun _ => ?_
    | infer_instance
    | exact overlooked_modifyAccount [.liquid] fun _ => .bind fun _ => .pure rfl
    | exact overlooked_modifyAccount [.liquid, .record] fun _ =>
        .bind fun _ => .bind fun _ => .pure rfl
    | exact overlooked_modifyAccount [.liquid, .delegated] fun _ =>
        .bind fun _ => .bind fun _ => .pure rfl

/-! ### Transactions and blocks -/

section Rules

variable {R : ChainState → ChainState → Prop} [Std.Refl R] [IsTrans ChainState R]

theorem validate_of_mem {operations : List Operation} {op : Operation} {u : PUnit}
    (valid : forM operations Operation.validate = .ok u) (member : op ∈ operations) :
    op.validate = .ok () := by
  induction operations with
  | nil => simp at member
  | cons first rest inductionHypothesis =>
    rw [List.forM_cons, except_bind_eq_ok] at valid
    obtain ⟨_, firstValid, valid⟩ := valid
    rcases List.mem_cons.mp member with rfl | later
    · exact firstValid
    · exact inductionHypothesis valid later

/-- A transaction that passes its checks has valid operations. -/
theorem validate_of_checked {state : ChainState} {trx : SignedTransaction} {u : Unit}
    (checked : skip.validate = false) (accepted : checkTransaction skip state trx = .ok u) :
    ∀ op ∈ trx.operations, op.validate = .ok () := by
  simp only [checkTransaction, except_bind_eq_ok, unlessSkipped_eq_ok] at accepted
  obtain ⟨_, validated, _⟩ := accepted
  have valid : trx.validate = .ok () := by
    rcases validated with skipped | valid
    · rw [checked] at skipped
      cases skipped
    · exact valid
  simp only [SignedTransaction.validate, except_bind_eq_ok, ensure_eq_ok] at valid
  obtain ⟨_, _, valid⟩ := valid
  exact fun op member => validate_of_mem valid member

/-- The operations of a transaction are applied only when they are valid. -/
theorem respects_applyTransaction {trx : SignedTransaction} [Respects R (insertTransaction trx)]
    (checked : skip.validate = false)
    (each : ∀ op ∈ trx.operations, op.validate = .ok () → Respects R (applyOperation producing op)) :
    Respects R (applyTransaction skip producing trx) := by
  refine .step inferInstance fun state => .computed fun _ accepted => .step inferInstance fun _ => ?_
  exact respects_forM_mem fun op member =>
    each op member (validate_of_checked checked accepted op member)

theorem respects_applyBlockMaintenance {block : SignedBlock} [Respects R (createBlockSummary block)]
    [Respects R clearExpiredTransactions] [Respects R clearExpiredOrders]
    [Respects R clearExpiredDelegations] [Respects R updateWitnessSchedule]
    [Respects R updateMedianFeed] [Respects R updateVirtualSupply]
    [Respects R clearNullAccountBalance] [Respects R processFunds] [Respects R processConversions]
    [Respects R processCommentCashout] [Respects R processVestingWithdrawals]
    [Respects R processSavingsWithdraws] [Respects R accountRecoveryProcessing]
    [Respects R expireEscrowRatification] [Respects R processDeclineVotingRights] :
    Respects R (applyBlockMaintenance block) := by
  have hardforks : Respects R processHardforks := by
    dsimp only [processHardforks]
    infer_instance
  dsimp only [applyBlockMaintenance]
  repeat with_reducible refine .step inferInstance fun _ => ?_
  infer_instance

theorem respects_applyBlock {block : SignedBlock}
    (transactions : ∀ trx ∈ block.transactions, Respects R (applyTransaction skip producing trx))
    (produced : Respects R (modify fun state : ChainState => { state with
      dgp := { state.dgp with currentWitness := block.witness } } : Chain PUnit))
    [Respects R (processHeaderExtensions block)] [Respects R (updateGlobalDynamicData skip block)]
    [∀ name, Respects R (updateSigningWitness name block)] [Respects R updateLastIrreversibleNum]
    [Respects R (applyBlockMaintenance block)] : Respects R (applyBlock skip producing block) := by
  have header : Respects R (validateBlockHeader skip block) := by
    dsimp only [validateBlockHeader]
    infer_instance
  have applied : Respects R (forM block.transactions (applyTransaction skip producing)) :=
    respects_forM_mem transactions
  dsimp only [applyBlock, applyBlockTransactions]
  infer_instance

end Rules

/-! ### Runs -/

/-- The parts that the relation looks at are written by this footprint. -/
def Touches (watched footprint : List Part) : Prop := ∃ part ∈ watched, part ∈ footprint

instance (watched footprint : List Part) : Decidable (Touches watched footprint) :=
  inferInstanceAs (Decidable (∃ part ∈ watched, part ∈ footprint))

variable {R : ChainState → ChainState → Prop} {watched : List Part}

/-- A program whose footprint a relation does not look at respects the relation. -/
theorem respects_of_within {α : Type} {x : Chain α} {footprint : List Part}
    (within : Respects (Within footprint) x)
    (neutral : ∀ s t, (∀ part ∈ watched, part.get t = part.get s) → R s t)
    (untouched : ¬ Touches watched footprint) : Respects R x :=
  within.mono fun s t same => neutral s t fun part member =>
    same part fun written => untouched ⟨part, member, written⟩

variable [Std.Refl R] [IsTrans ChainState R]

/-- The rule for a relation that operations and the steps of a block respect one by one. -/
theorem respects_run_of_each {step : ChainStep} (validated : step.validated)
    [∀ trx, Respects R (insertTransaction trx)]
    (operations : ∀ producing, ∀ op ∈ step.operations, op.validate = .ok () →
      Respects R (applyOperation producing op))
    (each : ∀ blockStep : BlockStep, Respects R blockStep.run) : Respects R step.run := by
  cases step with
  | transaction skip producing trx =>
    exact respects_applyTransaction (by simpa [ChainStep.validated] using validated)
      (operations producing)
  | block skip producing next =>
    have maintenance : Respects R (applyBlockMaintenance next) :=
      @respects_applyBlockMaintenance _ _ _ _ (each (.blockSummary next)) (each .expiredTransactions)
        (each .expiredOrders) (each .expiredDelegations) (each .witnessSchedule) (each .medianFeed)
        (each .virtualSupply) (each .nullAccountBalance) (each .funds) (each .conversions)
        (each .commentCashout) (each .vestingWithdrawals) (each .savingsWithdraws)
        (each .accountRecovery) (each .escrowRatification) (each .declinedVotingRights)
    refine @respects_applyBlock _ _ _ _ _ _ (fun trx member => ?_) (each (.currentWitness next))
      (each (.headerExtensions next)) (each (.globalDynamicData skip next))
      (fun name => each (.signingWitness name next)) (each .lastIrreversibleNum) maintenance
    refine respects_applyTransaction (by simpa [ChainStep.validated] using validated)
      fun op listed => ?_
    exact operations producing op (List.mem_flatMap.mpr ⟨trx, member, listed⟩)

/-- The rule for a relation that looks at some parts only: it need be shown of the operations and
steps of a block that write them. -/
theorem respects_run_of_watched {step : ChainStep} (validated : step.validated)
    (neutral : ∀ s t, (∀ part ∈ watched, part.get t = part.get s) → R s t)
    (operations : ∀ producing, ∀ op ∈ step.operations, op.validate = .ok () →
      Touches watched op.footprint → Respects R (applyOperation producing op))
    (steps : ∀ blockStep : BlockStep, Touches watched blockStep.footprint →
      Respects R blockStep.run)
    (transactions : Part.transactions ∉ watched) : Respects R step.run := by
  have inserted (trx : SignedTransaction) : Respects R (insertTransaction trx) := by
    have within : Respects (Within [.transactions]) (insertTransaction trx) := inferInstance
    refine respects_of_within within neutral ?_
    rintro ⟨part, member, listed⟩
    obtain rfl := List.mem_singleton.mp listed
    exact transactions member
  refine respects_run_of_each validated (fun producing op member valid => ?_) fun blockStep => ?_
  · by_cases touched : Touches watched op.footprint
    · exact operations producing op member valid touched
    · exact respects_of_within inferInstance neutral touched
  · by_cases touched : Touches watched blockStep.footprint
    · exact steps blockStep touched
    · exact respects_of_within inferInstance neutral touched

end Zattera
