/-
This file says what the programs of the chain write. A state is seen in aspects:
its tables and records, and of accounts, witnesses and global properties the
facets their fields fall into. A relation between states that overlooks what a
program writes is respected by it, and a relation that the parts of a program
respect is respected by the program. Both are shown once here, for any relation.
-/

import Zattera.Lib.Facet
import Zattera.Proof.Access

namespace Zattera

open Program Faceted

set_option synthInstance.maxSize 4096

/-! ### Facets of accounts, witnesses and global properties -/

inductive Account.Facet where
  | liquid | savings | dollars | savingsDollars | rewards | owed | shares | withdrawal | proxied
  | proxy | requests | ballots | delegated | received | power | record
  deriving DecidableEq

/-- The record of an account is what concerns neither its balances nor its votes for witnesses. -/
instance : Faceted Account Account.Facet where
  blank := Account.make 0 default
  copy
    | .liquid, source, target => { target with liquidBalance := source.liquidBalance }
    | .savings, source, target => { target with savingsLiquidBalance := source.savingsLiquidBalance }
    | .dollars, source, target => target.withDollarHolding source.dollarHolding
    | .savingsDollars, source, target => target.withSavingsHolding source.savingsHolding
    | .rewards, source, target => { target with
        rewardDollarBalance := source.rewardDollarBalance
        rewardLiquidBalance := source.rewardLiquidBalance }
    | .owed, source, target => { target with
        rewardVestingShareBalance := source.rewardVestingShareBalance
        rewardVestingLiquidBalance := source.rewardVestingLiquidBalance }
    | .shares, source, target => { target with vestingShareBalance := source.vestingShareBalance }
    | .withdrawal, source, target => { target with
        vestingWithdrawRate := source.vestingWithdrawRate
        nextVestingWithdrawal := source.nextVestingWithdrawal
        withdrawn := source.withdrawn
        toWithdraw := source.toWithdraw }
    | .proxied, source, target => target.withProxied source.proxiedVsfVotes
    | .proxy, source, target => { target with proxy := source.proxy }
    | .requests, source, target => { target with
        savingsWithdrawRequests := source.savingsWithdrawRequests }
    | .ballots, source, target => { target with witnessesVotedFor := source.witnessesVotedFor }
    | .delegated, source, target => { target with
        delegatedVestingShareBalance := source.delegatedVestingShareBalance }
    | .received, source, target => { target with
        receivedVestingShareBalance := source.receivedVestingShareBalance }
    | .power, source, target => { target with
        votingPower := source.votingPower
        lastVoteTime := source.lastVoteTime }
    | .record, source, target => { target with
        id := source.id
        lastAccountUpdate := source.lastAccountUpdate
        created := source.created
        mined := source.mined
        recoveryAccount := source.recoveryAccount
        lastAccountRecovery := source.lastAccountRecovery
        postCount := source.postCount
        canVote := source.canVote
        curationRewards := source.curationRewards
        postingRewards := source.postingRewards
        withdrawRoutes := source.withdrawRoutes
        lastPost := source.lastPost
        lastRootPost := source.lastRootPost
        pendingClaimedAccounts := source.pendingClaimedAccounts }
  copy_blank facet := by cases facet <;> rfl
  copy_copy_blank {facet other} different object := by
    cases facet <;> cases other <;> first | rfl | exact absurd rfl different

theorem Account.name_without (facets : List Account.Facet) (account : Account) :
    (without facets account).name = account.name := by
  induction facets generalizing account with
  | nil => rfl
  | cons facet rest inductionHypothesis =>
    refine (inductionHypothesis _).trans ?_
    cases facet <;> rfl

inductive Witness.Facet where
  | votes | lap | schedule | confirmed | price | record
  deriving DecidableEq

instance : Faceted Witness Witness.Facet where
  blank := Witness.make default
  copy
    | .votes, source, target => { target with votes := source.votes }
    | .lap, source, target => { target with
        virtualLastUpdate := source.virtualLastUpdate
        virtualPosition := source.virtualPosition
        virtualScheduledTime := source.virtualScheduledTime }
    | .schedule, source, target => { target with schedule := source.schedule }
    | .confirmed, source, target => { target with
        lastConfirmedBlockNum := source.lastConfirmedBlockNum }
    | .price, source, target => { target with
        dollarExchangeRate := source.dollarExchangeRate
        lastDollarExchangeUpdate := source.lastDollarExchangeUpdate }
    | .record, source, target => { source with
        owner := target.owner
        dollarExchangeRate := target.dollarExchangeRate
        lastDollarExchangeUpdate := target.lastDollarExchangeUpdate
        votes := target.votes
        virtualLastUpdate := target.virtualLastUpdate
        virtualPosition := target.virtualPosition
        virtualScheduledTime := target.virtualScheduledTime
        schedule := target.schedule
        lastConfirmedBlockNum := target.lastConfirmedBlockNum }
  copy_blank facet := by cases facet <;> rfl
  copy_copy_blank {facet other} different object := by
    cases facet <;> cases other <;> first | rfl | exact absurd rfl different

theorem Witness.owner_without (facets : List Witness.Facet) (witness : Witness) :
    (without facets witness).owner = witness.owner := by
  induction facets generalizing witness with
  | nil => rfl
  | cons facet rest inductionHypothesis =>
    refine (inductionHypothesis _).trans ?_
    cases facet <;> rfl

inductive DynamicGlobalProperties.Facet where
  | head | irreversible | producer | slots | supply | virtual | fund | pending | rates
  deriving DecidableEq

instance : Faceted DynamicGlobalProperties DynamicGlobalProperties.Facet where
  blank := default
  copy
    | .head, source, target => { target with
        headBlockNumber := source.headBlockNumber
        headBlockId := source.headBlockId
        time := source.time }
    | .irreversible, source, target => { target with
        lastIrreversibleBlockNum := source.lastIrreversibleBlockNum }
    | .producer, source, target => { target with currentWitness := source.currentWitness }
    | .slots, source, target => { target with
        currentAslot := source.currentAslot
        recentSlotsFilled := source.recentSlotsFilled
        participationCount := source.participationCount }
    | .supply, source, target => { target with
        currentLiquidSupply := source.currentLiquidSupply
        currentDollarSupply := source.currentDollarSupply }
    | .virtual, source, target => { target with
        virtualLiquidSupply := source.virtualLiquidSupply }
    | .fund, source, target => { target with
        totalVestingFundLiquid := source.totalVestingFundLiquid
        totalVestingShares := source.totalVestingShares
        totalRewardFundLiquid := source.totalRewardFundLiquid }
    | .pending, source, target => { target with
        pendingRewardedVestingShares := source.pendingRewardedVestingShares
        pendingRewardedVestingLiquid := source.pendingRewardedVestingLiquid }
    | .rates, source, target => { target with
        dollarInterestRate := source.dollarInterestRate
        dollarPrintRate := source.dollarPrintRate
        maximumBlockSize := source.maximumBlockSize
        votePowerReserveRate := source.votePowerReserveRate
        delegationReturnPeriod := source.delegationReturnPeriod }
  copy_blank facet := by cases facet <;> rfl
  copy_copy_blank {facet other} different object := by
    cases facet <;> cases other <;> first | rfl | exact absurd rfl different

/-! ### Parts of the state -/

/-- The fields of the state. -/
inductive Part where
  | dgp | accounts | accountAuthorities | witnesses | witnessVotes | witnessSchedule | feedHistory
  | comments | nextCommentId | commentContents | commentVotes | limitOrders | convertRequests
  | escrows | savingsWithdraws | withdrawRoutes | vestingDelegations | delegationExpirations
  | nextExpirationId | ownerHistories | nextHistoryId | recoveryRequests | changeRecoveryRequests
  | declineRequests | rewardFunds | transactions | blockSummaries | hardforks
  deriving DecidableEq

namespace Part

/-- What is kept in a part. -/
abbrev Value : Part → Type
  | dgp => DynamicGlobalProperties
  | accounts => Table AccountName Account Account.name
  | accountAuthorities => Table AccountName AccountAuthority AccountAuthority.account
  | witnesses => Table AccountName Witness Witness.owner
  | witnessVotes => Table WitnessVote WitnessVote id
  | witnessSchedule => WitnessSchedule
  | feedHistory => FeedHistory
  | comments => Table (AccountName × Text) Comment Comment.key
  | nextCommentId => Nat
  | commentContents => Table Nat CommentContent CommentContent.comment
  | commentVotes => Table (Nat × AccountName) CommentVote fun vote => (vote.comment, vote.voter)
  | limitOrders => Table (AccountName × Nat) LimitOrder fun order => (order.seller, order.orderid)
  | convertRequests => Table (AccountName × Nat) ConvertRequest
      fun request => (request.owner, request.requestid)
  | escrows => Table (AccountName × Nat) Escrow fun escrow => (escrow.fromAccount, escrow.escrowId)
  | savingsWithdraws => Table (AccountName × Nat) SavingsWithdraw
      fun withdraw => (withdraw.fromAccount, withdraw.requestId)
  | withdrawRoutes => Table (AccountName × AccountName) WithdrawVestingRoute
      fun route => (route.fromAccount, route.toAccount)
  | vestingDelegations => Table (AccountName × AccountName) VestingDelegation
      fun delegation => (delegation.delegator, delegation.delegatee)
  | delegationExpirations => Table Nat VestingDelegationExpiration VestingDelegationExpiration.id
  | nextExpirationId => Nat
  | ownerHistories => Table Nat OwnerAuthorityHistory OwnerAuthorityHistory.id
  | nextHistoryId => Nat
  | recoveryRequests =>
    Table AccountName AccountRecoveryRequest AccountRecoveryRequest.accountToRecover
  | changeRecoveryRequests =>
    Table AccountName ChangeRecoveryAccountRequest ChangeRecoveryAccountRequest.accountToRecover
  | declineRequests => Table AccountName DeclineVotingRightsRequest DeclineVotingRightsRequest.account
  | rewardFunds => Table AccountName RewardFund RewardFund.name
  | transactions => Table TransactionId TransactionObject TransactionObject.trxId
  | blockSummaries => List (Nat × BlockId)
  | hardforks => HardforkProperties

def get (state : ChainState) : (part : Part) → part.Value
  | dgp => state.dgp
  | accounts => state.accounts
  | accountAuthorities => state.accountAuthorities
  | witnesses => state.witnesses
  | witnessVotes => state.witnessVotes
  | witnessSchedule => state.witnessSchedule
  | feedHistory => state.feedHistory
  | comments => state.comments
  | nextCommentId => state.nextCommentId
  | commentContents => state.commentContents
  | commentVotes => state.commentVotes
  | limitOrders => state.limitOrders
  | convertRequests => state.convertRequests
  | escrows => state.escrows
  | savingsWithdraws => state.savingsWithdraws
  | withdrawRoutes => state.withdrawRoutes
  | vestingDelegations => state.vestingDelegations
  | delegationExpirations => state.delegationExpirations
  | nextExpirationId => state.nextExpirationId
  | ownerHistories => state.ownerHistories
  | nextHistoryId => state.nextHistoryId
  | recoveryRequests => state.recoveryRequests
  | changeRecoveryRequests => state.changeRecoveryRequests
  | declineRequests => state.declineRequests
  | rewardFunds => state.rewardFunds
  | transactions => state.transactions
  | blockSummaries => state.blockSummaries
  | hardforks => state.hardforks

def set (state : ChainState) : (part : Part) → part.Value → ChainState
  | dgp, value => { state with dgp := value }
  | accounts, value => { state with accounts := value }
  | accountAuthorities, value => { state with accountAuthorities := value }
  | witnesses, value => { state with witnesses := value }
  | witnessVotes, value => { state with witnessVotes := value }
  | witnessSchedule, value => { state with witnessSchedule := value }
  | feedHistory, value => { state with feedHistory := value }
  | comments, value => { state with comments := value }
  | nextCommentId, value => { state with nextCommentId := value }
  | commentContents, value => { state with commentContents := value }
  | commentVotes, value => { state with commentVotes := value }
  | limitOrders, value => { state with limitOrders := value }
  | convertRequests, value => { state with convertRequests := value }
  | escrows, value => { state with escrows := value }
  | savingsWithdraws, value => { state with savingsWithdraws := value }
  | withdrawRoutes, value => { state with withdrawRoutes := value }
  | vestingDelegations, value => { state with vestingDelegations := value }
  | delegationExpirations, value => { state with delegationExpirations := value }
  | nextExpirationId, value => { state with nextExpirationId := value }
  | ownerHistories, value => { state with ownerHistories := value }
  | nextHistoryId, value => { state with nextHistoryId := value }
  | recoveryRequests, value => { state with recoveryRequests := value }
  | changeRecoveryRequests, value => { state with changeRecoveryRequests := value }
  | declineRequests, value => { state with declineRequests := value }
  | rewardFunds, value => { state with rewardFunds := value }
  | transactions, value => { state with transactions := value }
  | blockSummaries, value => { state with blockSummaries := value }
  | hardforks, value => { state with hardforks := value }

/-- A part that is not the one written is as it was. -/
theorem get_set_of_ne {state : ChainState} {part other : Part} {value : part.Value}
    (different : other ≠ part) : other.get (part.set state value) = other.get state := by
  cases part <;> cases other <;> first | rfl | exact absurd rfl different

/-- States with the same parts are the same. -/
theorem eq_of_get {s t : ChainState} (same : ∀ part : Part, part.get t = part.get s) : t = s := by
  cases s
  cases t
  rw [ChainState.mk.injEq]
  exact ⟨same .dgp, same .accounts, same .accountAuthorities, same .witnesses, same .witnessVotes,
    same .witnessSchedule, same .feedHistory, same .comments, same .nextCommentId,
    same .commentContents, same .commentVotes, same .limitOrders, same .convertRequests,
    same .escrows, same .savingsWithdraws, same .withdrawRoutes, same .vestingDelegations,
    same .delegationExpirations, same .nextExpirationId, same .ownerHistories, same .nextHistoryId,
    same .recoveryRequests, same .changeRecoveryRequests, same .declineRequests, same .rewardFunds,
    same .transactions, same .blockSummaries, same .hardforks⟩

end Part

/-! ### Aspects of the state -/

/-- What a relation between states may look at or overlook: a part, who the accounts and witnesses
are, and their facets and those of the global properties. -/
inductive Aspect where
  | part (part : Part)
  | names
  | account (facet : Account.Facet)
  | owners
  | witness (facet : Witness.Facet)
  | global (facet : DynamicGlobalProperties.Facet)
  deriving DecidableEq

namespace Aspect

/-- The part an aspect belongs to. -/
def home : Aspect → Part
  | part which => which
  | names | account _ => .accounts
  | owners | witness _ => .witnesses
  | global _ => .dgp

/-- The aspect is the same in both states. -/
def Same (s t : ChainState) : Aspect → Prop
  | part which => which.get t = which.get s
  | names => t.accounts.objects.map Account.name = s.accounts.objects.map Account.name
  | account facet => t.accounts.facetOf facet = s.accounts.facetOf facet
  | owners => t.witnesses.objects.map Witness.owner = s.witnesses.objects.map Witness.owner
  | witness facet => t.witnesses.facetOf facet = s.witnesses.facetOf facet
  | global facet => only facet t.dgp = only facet s.dgp

theorem Same.refl (s : ChainState) (aspect : Aspect) : aspect.Same s s := by
  cases aspect <;> exact rfl

theorem Same.trans {s t u : ChainState} {aspect : Aspect} (first : aspect.Same s t)
    (second : aspect.Same t u) : aspect.Same s u := by
  cases aspect <;> exact Eq.trans second first

/-- Where a part is the same, so are its aspects. -/
theorem Same.of_home {s t : ChainState} {aspect : Aspect}
    (same : aspect.home.get t = aspect.home.get s) : aspect.Same s t := by
  cases aspect with
  | part which => exact same
  | names => exact congrArg (fun accounts : Table _ _ _ => accounts.objects.map Account.name) same
  | account facet => exact congrArg (fun accounts : Table _ _ _ => accounts.facetOf facet) same
  | owners => exact congrArg (fun witnesses : Table _ _ _ => witnesses.objects.map Witness.owner) same
  | witness facet => exact congrArg (fun witnesses : Table _ _ _ => witnesses.facetOf facet) same
  | global facet => exact congrArg (only facet) same

end Aspect

/-- All aspects but those aside are the same. -/
def Beside (aside : Aspect → Prop) (s t : ChainState) : Prop :=
  ∀ aspect, ¬ aside aspect → aspect.Same s t

instance (aside : Aspect → Prop) : Std.Refl (Beside aside) := ⟨fun s aspect _ => .refl s aspect⟩

instance (aside : Aspect → Prop) : IsTrans ChainState (Beside aside) :=
  ⟨fun _ _ _ first second aspect seen => (first aspect seen).trans (second aspect seen)⟩

section Facets

variable {aside : Aspect → Prop} {s t : ChainState}

theorem Beside.accounts (same : Beside aside s t) {facets : List Account.Facet}
    (seen : ∀ facet ∈ facets, ¬ aside (.account facet)) :
    ∀ facet ∈ facets, t.accounts.facetOf facet = s.accounts.facetOf facet :=
  fun facet listed => same (.account facet) (seen facet listed)

theorem Beside.globals (same : Beside aside s t) {facets : List DynamicGlobalProperties.Facet}
    (seen : ∀ facet ∈ facets, ¬ aside (.global facet)) :
    ∀ facet ∈ facets, only facet t.dgp = only facet s.dgp :=
  fun facet listed => same (.global facet) (seen facet listed)

end Facets

/-- The relation holds of states that differ in what is aside only. -/
class Overlooks (R : ChainState → ChainState → Prop) (aside : outParam (Aspect → Prop)) : Prop where
  holds {s t : ChainState} : Beside aside s t → R s t

instance (aside : Aspect → Prop) : Overlooks (Beside aside) aside := ⟨id⟩

class Aside (aside : Aspect → Prop) (aspect : Aspect) : Prop where
  holds : aside aspect

/-- Some facets are aside. -/
class Covers {Facet : Type} (aside : Aspect → Prop) (aspect : Facet → Aspect)
    (facets : List Facet) : Prop where
  each : ∀ facet ∈ facets, aside (aspect facet)

instance {Facet : Type} (aside : Aspect → Prop) (aspect : Facet → Aspect) :
    Covers aside aspect [] := ⟨nofun⟩

instance {Facet : Type} (aside : Aspect → Prop) (aspect : Facet → Aspect) (facet : Facet)
    (rest : List Facet) [first : Aside aside (aspect facet)] [others : Covers aside aspect rest] :
    Covers aside aspect (facet :: rest) :=
  ⟨List.forall_mem_cons.mpr ⟨first.holds, others.each⟩⟩

/-- All aspects of a part are aside. -/
class Whole (aside : Aspect → Prop) (part : Part) : Prop where
  each : ∀ aspect : Aspect, aspect.home = part → aside aspect

section Whole

variable (aside : Aspect → Prop)

instance (part : Part) [whole : Whole aside part] : Aside aside (.part part) := ⟨whole.each _ rfl⟩

instance [whole : Whole aside .accounts] : Aside aside .names := ⟨whole.each _ rfl⟩

instance (facet : Account.Facet) [whole : Whole aside .accounts] : Aside aside (.account facet) :=
  ⟨whole.each _ rfl⟩

instance [whole : Whole aside .witnesses] : Aside aside .owners := ⟨whole.each _ rfl⟩

instance (facet : Witness.Facet) [whole : Whole aside .witnesses] : Aside aside (.witness facet) :=
  ⟨whole.each _ rfl⟩

instance (facet : DynamicGlobalProperties.Facet) [whole : Whole aside .dgp] :
    Aside aside (.global facet) :=
  ⟨whole.each _ rfl⟩

end Whole

/-- What is aside as a list. -/
def Among (list : List Aspect) (aspect : Aspect) : Prop := aspect ∈ list

instance (list : List Aspect) : DecidablePred (Among list) :=
  fun aspect => inferInstanceAs (Decidable (aspect ∈ list))

instance (aspect : Aspect) (rest : List Aspect) : Aside (Among (aspect :: rest)) aspect :=
  ⟨List.mem_cons_self⟩

instance (aspect first : Aspect) (rest : List Aspect) [later : Aside (Among rest) aspect] :
    Aside (Among (first :: rest)) aspect :=
  ⟨List.mem_cons_of_mem first later.holds⟩

/-- What is aside in one way or the other. -/
def Either (first second : Aspect → Prop) (aspect : Aspect) : Prop := first aspect ∨ second aspect

section Either

variable (first second : Aspect → Prop)

instance [DecidablePred first] [DecidablePred second] : DecidablePred (Either first second) :=
  fun aspect => inferInstanceAs (Decidable (first aspect ∨ second aspect))

instance (aspect : Aspect) [listed : Aside first aspect] : Aside (Either first second) aspect :=
  ⟨.inl listed.holds⟩

instance (aspect : Aspect) [listed : Aside second aspect] : Aside (Either first second) aspect :=
  ⟨.inr listed.holds⟩

instance (part : Part) [whole : Whole first part] : Whole (Either first second) part :=
  ⟨fun aspect home => .inl (whole.each aspect home)⟩

end Either

/-! ### Writes -/

section Writes

variable {R : ChainState → ChainState → Prop} {aside : Aspect → Prop} [overlooks : Overlooks R aside]
  {s : ChainState}

/-- The parts that have no facets. -/
def Part.isPlain : Part → Bool
  | accounts | witnesses | dgp => false
  | _ => true

theorem overlooked_set (part : Part) (plain : part.isPlain) [written : Aside aside (.part part)]
    (value : part.Value) : R s (part.set s value) := by
  refine overlooks.holds fun aspect seen => .of_home (Part.get_set_of_ne ?_)
  rintro rfl
  cases aspect with
  | part part => exact seen written.holds
  | names | account | owners | witness | global => exact absurd plain Bool.false_ne_true

theorem overlooked_write (part : Part) (plain : part.isPlain) [Aside aside (.part part)]
    {change : ChainState → part.Value} :
    Respects R (modify fun state => part.set state (change state) : Chain PUnit) :=
  .modify fun _ => overlooked_set part plain _

/-- Whatever is written to a part that is aside as a whole. -/
theorem overlooked_setWhole (part : Part) [whole : Whole aside part] (value : part.Value) :
    R s (part.set s value) :=
  overlooks.holds fun aspect seen => .of_home
    (Part.get_set_of_ne fun home => seen (whole.each aspect home))

section Accounts

variable [accounts : Aside aside (.part .accounts)]

theorem overlooked_replaceAccount {account changed : Account} (facets : List Account.Facet)
    [covers : Covers aside .account facets]
    (found : s.accounts.find? account.name = some account)
    (same : without facets changed = without facets account) :
    R s { s with accounts := s.accounts.replace changed } := by
  have named : changed.name = account.name := by
    rw [← Account.name_without facets, same, Account.name_without]
  rw [← named] at found
  refine overlooks.holds fun aspect seen => ?_
  cases aspect with
  | part part =>
    refine @Part.get_set_of_ne s .accounts part _ ?_
    rintro rfl
    exact seen accounts.holds
  | names => exact Table.map_replace Account.name found named
  | account facet =>
    refine Table.facetOf_replace found (only_eq_of_without same ?_)
    exact fun member => seen (covers.each facet member)
  | owners | witness | global => rfl

variable {name : AccountName}

theorem overlooked_modifyAccount (facets : List Account.Facet) [Covers aside .account facets]
    {change : Account → Except ChainError Account}
    (same : ∀ account, Ensures (fun changed => without facets changed = without facets account)
      (change account)) : Respects R (modifyAccount name change) := by
  refine respects_modifyAccount fun s account changed found made => ?_
  rw [← Table.key_of_find? found] at found
  exact overlooked_replaceAccount facets found (same account changed made)

theorem overlooked_updateAccount (facets : List Account.Facet) [Covers aside .account facets]
    {change : Account → Account}
    (same : ∀ account, without facets (change account) = without facets account) :
    Respects R (updateAccount name change) :=
  overlooked_modifyAccount facets fun account => .pure (same account)

end Accounts

section Witnesses

variable [witnesses : Aside aside (.part .witnesses)] {name : AccountName}

theorem overlooked_modifyWitness (facets : List Witness.Facet)
    [covers : Covers aside .witness facets] {change : Witness → Except ChainError Witness}
    (same : ∀ witness, Ensures (fun changed => without facets changed = without facets witness)
      (change witness)) : Respects R (modifyWitness name change) := by
  refine respects_modifyWitness fun s witness changed found made => ?_
  have same : without facets changed = without facets witness := same witness changed made
  have owned : changed.owner = witness.owner := by
    rw [← Witness.owner_without facets, same, Witness.owner_without]
  rw [← Table.key_of_find? found, ← owned] at found
  refine overlooks.holds fun aspect seen => ?_
  cases aspect with
  | part part =>
    refine @Part.get_set_of_ne s .witnesses part _ ?_
    rintro rfl
    exact seen witnesses.holds
  | owners => exact Table.map_replace Witness.owner found owned
  | witness facet =>
    refine Table.facetOf_replace found (only_eq_of_without same ?_)
    exact fun member => seen (covers.each facet member)
  | names | account | global => rfl

theorem overlooked_updateWitness (facets : List Witness.Facet) [Covers aside .witness facets]
    {change : Witness → Witness}
    (same : ∀ witness, without facets (change witness) = without facets witness) :
    Respects R (updateWitness name change) :=
  overlooked_modifyWitness facets fun witness => .pure (same witness)

end Witnesses

section Global

variable [globals : Aside aside (.part .dgp)]

theorem overlooked_setDgp {dgp : DynamicGlobalProperties}
    (facets : List DynamicGlobalProperties.Facet) [covers : Covers aside .global facets]
    (same : without facets dgp = without facets s.dgp) : R s { s with dgp := dgp } := by
  refine overlooks.holds fun aspect seen => ?_
  cases aspect with
  | part part =>
    refine @Part.get_set_of_ne s .dgp part _ ?_
    rintro rfl
    exact seen globals.holds
  | global facet => exact only_eq_of_without same fun member => seen (covers.each facet member)
  | names | account | owners | witness => rfl

theorem overlooked_modifyDgp (facets : List DynamicGlobalProperties.Facet)
    [Covers aside .global facets]
    {change : DynamicGlobalProperties → Except ChainError DynamicGlobalProperties}
    (same : ∀ dgp, Ensures (fun changed => without facets changed = without facets dgp)
      (change dgp)) : Respects R (modifyDgp change) :=
  respects_modifyDgp fun s dgp made => overlooked_setDgp facets (same s.dgp dgp made)

end Global

theorem overlooked_set_set (first second : Part) (plain : first.isPlain && second.isPlain)
    [Aside aside (.part first)] [Aside aside (.part second)] (one : first.Value)
    (two : second.Value) : R s (second.set (first.set s one) two) := by
  rw [Bool.and_eq_true] at plain
  have written : Beside aside s (first.set s one) := overlooked_set first plain.1 one
  exact overlooks.holds (IsTrans.trans _ _ _ written (overlooked_set second plain.2 two))

end Writes

/-! ### Single objects -/

section Objects

variable {R : ChainState → ChainState → Prop} {aside : Aspect → Prop} [Overlooks R aside]

section Whole

variable (name : AccountName)

instance [Whole aside .accounts] (account : Account) : Respects R (putAccount account) :=
  .modify fun _ => overlooked_setWhole .accounts _

instance [Whole aside .accounts] (change : Account → Except ChainError Account) :
    Respects R (modifyAccount name change) :=
  respects_modifyAccount fun _ _ _ _ _ => overlooked_setWhole .accounts _

instance [Whole aside .accounts] (change : Account → Account) :
    Respects R (updateAccount name change) :=
  respects_modifyAccount fun _ _ _ _ _ => overlooked_setWhole .accounts _

instance [Whole aside .witnesses] (change : Witness → Except ChainError Witness) :
    Respects R (modifyWitness name change) :=
  respects_modifyWitness fun _ _ _ _ _ => overlooked_setWhole .witnesses _

instance [Whole aside .witnesses] (change : Witness → Witness) :
    Respects R (updateWitness name change) :=
  respects_modifyWitness fun _ _ _ _ _ => overlooked_setWhole .witnesses _

instance [Whole aside .dgp]
    (change : DynamicGlobalProperties → Except ChainError DynamicGlobalProperties) :
    Respects R (modifyDgp change) :=
  respects_modifyDgp fun _ _ _ => overlooked_setWhole .dgp _

end Whole

section Content

variable [Aside aside (.part .comments)] (comment : Comment)

instance : Respects R (putComment comment) := overlooked_write .comments rfl

instance [Aside aside (.part .nextCommentId)] : Respects R (insertComment comment) :=
  respects_create fun _ added _ => overlooked_set_set .comments .nextCommentId rfl added _

end Content

instance [Aside aside (.part .commentContents)] (content : CommentContent) :
    Respects R (insertCommentContent content) :=
  respects_create fun _ added _ => overlooked_set .commentContents rfl added

instance [Aside aside (.part .commentVotes)] (vote : CommentVote) :
    Respects R (insertCommentVote vote) :=
  respects_create fun _ added _ => overlooked_set .commentVotes rfl added

instance [Aside aside (.part .commentVotes)] (vote : CommentVote) :
    Respects R (putCommentVote vote) :=
  overlooked_write .commentVotes rfl

section Orders

variable [Aside aside (.part .limitOrders)] (order : LimitOrder)

instance : Respects R (insertLimitOrder order) :=
  respects_create fun _ added _ => overlooked_set .limitOrders rfl added

instance : Respects R (putLimitOrder order) := overlooked_write .limitOrders rfl

instance : Respects R (eraseLimitOrder order) := overlooked_write .limitOrders rfl

end Orders

section Escrows

variable [Aside aside (.part .escrows)] (escrow : Escrow)

instance : Respects R (insertEscrow escrow) :=
  respects_create fun _ added _ => overlooked_set .escrows rfl added

instance : Respects R (putEscrow escrow) := overlooked_write .escrows rfl

instance : Respects R (eraseEscrow escrow) := overlooked_write .escrows rfl

end Escrows

section Conversions

variable [Aside aside (.part .convertRequests)] (request : ConvertRequest)

instance : Respects R (insertConvertRequest request) :=
  respects_create fun _ added _ => overlooked_set .convertRequests rfl added

instance : Respects R (eraseConvertRequest request) := overlooked_write .convertRequests rfl

end Conversions

section Savings

variable [Aside aside (.part .savingsWithdraws)]

instance (withdraw : SavingsWithdraw) : Respects R (insertSavingsWithdraw withdraw) :=
  respects_create fun _ added _ => overlooked_set .savingsWithdraws rfl added

instance (account : AccountName) (requestId : Nat) :
    Respects R (eraseSavingsWithdraw account requestId) :=
  overlooked_write .savingsWithdraws rfl

end Savings

section Authorities

variable [Aside aside (.part .accountAuthorities)] (auth : AccountAuthority)

instance : Respects R (insertAccountAuthority auth) :=
  respects_create fun _ added _ => overlooked_set .accountAuthorities rfl added

instance : Respects R (putAccountAuthority auth) := overlooked_write .accountAuthorities rfl

end Authorities

section Recovery

variable [Aside aside (.part .recoveryRequests)]

instance (request : AccountRecoveryRequest) : Respects R (insertRecoveryRequest request) :=
  respects_create fun _ added _ => overlooked_set .recoveryRequests rfl added

instance (account : AccountName) : Respects R (eraseRecoveryRequest account) :=
  overlooked_write .recoveryRequests rfl

end Recovery

instance [Aside aside (.part .changeRecoveryRequests)] (request : ChangeRecoveryAccountRequest) :
    Respects R (insertChangeRecoveryRequest request) :=
  respects_create fun _ added _ => overlooked_set .changeRecoveryRequests rfl added

instance [Aside aside (.part .declineRequests)] (request : DeclineVotingRightsRequest) :
    Respects R (insertDeclineRequest request) :=
  respects_create fun _ added _ => overlooked_set .declineRequests rfl added

instance [Aside aside (.part .witnessVotes)] (vote : WitnessVote) :
    Respects R (insertWitnessVote vote) :=
  respects_create fun _ added _ => overlooked_set .witnessVotes rfl added

instance [Aside aside (.part .withdrawRoutes)] (route : WithdrawVestingRoute) :
    Respects R (insertWithdrawRoute route) :=
  respects_create fun _ added _ => overlooked_set .withdrawRoutes rfl added

instance [Aside aside (.part .vestingDelegations)] (delegation : VestingDelegation) :
    Respects R (insertVestingDelegation delegation) :=
  respects_create fun _ added _ => overlooked_set .vestingDelegations rfl added

instance [Aside aside (.part .rewardFunds)] (fund : RewardFund) : Respects R (putRewardFund fund) :=
  overlooked_write .rewardFunds rfl

instance [Aside aside (.part .transactions)] (trx : SignedTransaction) :
    Respects R (insertTransaction trx) :=
  respects_create fun _ added _ => overlooked_set .transactions rfl added

/-! ### Facets of single objects -/

section Facets

variable [Aside aside (.part .accounts)] (name : AccountName)

instance [Aside aside (.account .power)] (voter : Account) (power : VotePower)
    (now : TimePointSec) : Respects R (spendVotingPower voter power now) :=
  overlooked_updateAccount [.power] fun _ => rfl

instance [Aside aside (.account .requests)] (count : Nat → Nat) :
    Respects R (updateAccount name fun account =>
      { account with savingsWithdrawRequests := count account.savingsWithdrawRequests }) :=
  overlooked_updateAccount [.requests] fun _ => rfl

instance [Aside aside (.account .delegated)] (delta : ShareType) :
    Respects R (modifyDelegated name delta) :=
  overlooked_modifyAccount [.delegated] fun _ => .bind fun _ => .pure rfl

instance [Aside aside (.account .received)] (delta : ShareType) :
    Respects R (modifyReceived name delta) :=
  overlooked_modifyAccount [.received] fun _ => .bind fun _ => .pure rfl

instance [Aside aside (.account .liquid)] (liquid : Asset) : Respects R (addLiquid name liquid) :=
  overlooked_modifyAccount [.liquid] fun _ => .bind fun _ => .pure rfl

instance [Aside aside (.account .proxied)] (place : Fin 4) (delta : ShareType) :
    Respects R (modifyAccount name fun proxy => proxy.addProxied place delta) :=
  overlooked_modifyAccount [.proxied] fun _ => .bind fun _ => .pure rfl

instance [Aside aside (.account .proxied)] (delta : VoteDeltas) (depth : Nat) :
    Respects R (modifyAccount name fun proxy => proxy.addProxiedDeltas delta depth) := by
  refine overlooked_modifyAccount [.proxied] fun account changed made => ?_
  rw [(Account.addProxiedDeltas_eq_ok made).1]
  rfl

end Facets

end Objects

/-! ### Balances -/

section Balances

variable {R : ChainState → ChainState → Prop} [Std.Refl R] [IsTrans ChainState R]

section Supply

variable {aside : Aspect → Prop} [Overlooks R aside] [Aside aside (.part .dgp)]
  [Aside aside (.global .supply)] [Aside aside (.global .virtual)]

instance (interestPaid : ShareType) : Respects R (issueInterest interestPaid) :=
  .step inferInstance fun _ => overlooked_modifyDgp [.supply, .virtual] fun _ =>
    .bind fun _ => .bind fun _ => .bind fun _ => .bind fun _ => .pure rfl

/-- No caller asks for the vesting fund to be adjusted with the supply. -/
instance (delta : Asset) : Respects R (adjustSupply delta false) := by
  refine .step inferInstance fun _ => overlooked_modifyDgp [.supply, .virtual] fun dgp => ?_
  split
  · intro changed made
    simp only [newVestingFor, Bool.false_and, Bool.false_eq_true, false_and, if_false,
      except_bind_eq_ok, Except.ok.injEq, exists_eq_left', ShareType.add_eq_ok,
      except_pure_eq_ok] at made
    obtain ⟨_, _, _, _, _, _, fund, same, _, _, rfl⟩ := made
    have kept : fund = dgp.totalVestingFundLiquid := by
      rw [Int64.toInt_zero, add_zero] at same
      exact Int64.toInt_inj.mp same
    rw [kept]
    rfl
  · repeat refine .bind fun _ => ?_
    exact .pure rfl
  · exact fun _ made => nomatch made

end Supply

section Holdings

variable [∀ interestPaid, Respects R (issueInterest interestPaid)] (holding : DollarHolding)

instance : Respects R (accrueInterest holding) := by
  dsimp only [accrueInterest]
  infer_instance

instance (delta : ShareType) (message : String) :
    Respects R (adjustHolding holding delta message) := by
  dsimp only [adjustHolding]
  infer_instance

end Holdings

section Adjustments

variable {aside : Aspect → Prop} [Overlooks R aside] [Aside aside (.part .accounts)]
  (name : AccountName)

/-- An account in hand is put back after its dollars have been brought up to date. -/
theorem overlooked_putHolding {s u t : ChainState} {account changed : Account}
    {holding current : DollarHolding} {delta : ShareType} {message : String} {v : Unit}
    [∀ interestPaid, Respects R (issueInterest interestPaid)] (facet : Account.Facet)
    [Aside aside (.account facet)] (found : s.accounts.find? account.name = some account)
    (adjusted : adjustHolding holding delta message s = .ok current u)
    (put : putAccount changed u = .ok v t) (same : without [facet] changed = without [facet] account) :
    R s t := by
  have within : Respects (Beside (Among [.part .dgp, .global .supply, .global .virtual]))
      (adjustHolding holding delta message) := inferInstance
  have accounts : u.accounts = s.accounts :=
    within.related s current u adjusted (.part .accounts) (by decide)
  have before : R s u := Respects.related s current u adjusted
  obtain rfl := modify_eq_ok.mp put
  rw [← accounts] at found
  exact IsTrans.trans _ _ _ before (overlooked_replaceAccount [facet] found same)

theorem overlooked_adjustBalance {name : AccountName} {delta : Asset}
    [Aside aside (.account .liquid)] [Aside aside (.account .dollars)]
    [∀ interestPaid, Respects R (issueInterest interestPaid)]
    (shares : delta.symbol = .vests → Aside aside (.account .shares)) :
    Respects R (adjustBalance name delta) where
  related s _ t run := by
    obtain ⟨account, _, read, modified⟩ := bind_eq_ok.mp run
    obtain ⟨found, rfl⟩ := getAccount_eq_ok.mp read
    obtain rfl : account.name = name := Table.key_of_find? found
    obtain ⟨amount, symbol⟩ := delta
    cases symbol with
    | dollar =>
      obtain ⟨holding, _, adjusted, put⟩ := bind_eq_ok.mp modified
      exact overlooked_putHolding .dollars found adjusted put rfl
    | liquid =>
      obtain ⟨balance, _, added, put⟩ := bind_eq_ok.mp modified
      obtain ⟨_, rfl⟩ := lift_eq_ok.mp added
      obtain rfl := modify_eq_ok.mp put
      exact overlooked_replaceAccount [.liquid] found rfl
    | vests =>
      obtain ⟨balance, _, added, put⟩ := bind_eq_ok.mp modified
      obtain ⟨_, rfl⟩ := lift_eq_ok.mp added
      obtain rfl := modify_eq_ok.mp put
      have := shares rfl
      exact overlooked_replaceAccount [.shares] found rfl

instance [Aside aside (.account .liquid)] [Aside aside (.account .dollars)]
    [Aside aside (.account .shares)] [∀ interestPaid, Respects R (issueInterest interestPaid)]
    (delta : Asset) : Respects R (adjustBalance name delta) :=
  overlooked_adjustBalance fun _ => inferInstance

instance [Aside aside (.account .savings)] [Aside aside (.account .savingsDollars)]
    [∀ interestPaid, Respects R (issueInterest interestPaid)] (delta : Asset) :
    Respects R (adjustSavingsBalance name delta) where
  related s _ t run := by
    obtain ⟨account, _, read, modified⟩ := bind_eq_ok.mp run
    obtain ⟨found, rfl⟩ := getAccount_eq_ok.mp read
    obtain rfl : account.name = name := Table.key_of_find? found
    obtain ⟨amount, symbol⟩ := delta
    cases symbol with
    | dollar =>
      obtain ⟨holding, _, adjusted, put⟩ := bind_eq_ok.mp modified
      exact overlooked_putHolding .savingsDollars found adjusted put rfl
    | liquid =>
      obtain ⟨balance, _, added, put⟩ := bind_eq_ok.mp modified
      obtain ⟨_, rfl⟩ := lift_eq_ok.mp added
      obtain rfl := modify_eq_ok.mp put
      exact overlooked_replaceAccount [.savings] found rfl
    | vests => exact (throw_eq_ok.mp modified).elim

omit [Std.Refl R] [IsTrans ChainState R] in
theorem overlooked_adjustRewardBalance {name : AccountName} {valueDelta : Asset}
    {shareDelta : ShareType} [Aside aside (.account .rewards)]
    (owed : shareDelta ≠ 0 → Aside aside (.account .owed)) :
    Respects R (adjustRewardBalance name valueDelta shareDelta) where
  related s _ t run := by
    simp only [adjustRewardBalance, bind_eq_ok, require_eq_ok, getAccount_eq_ok, and_assoc,
      exists_and_left, exists_eq_left', exists_const] at run
    obtain ⟨_, account, found, run⟩ := run
    obtain rfl : account.name = name := Table.key_of_find? found
    obtain ⟨amount, symbol⟩ := valueDelta
    cases symbol with
    | liquid =>
      simp only [modifyRewardBalance] at run
      split at run
      all_goals
        simp only [bind_eq_ok, lift_eq_ok, putAccount, modify_eq_ok, and_assoc, exists_and_left,
          exists_eq_left'] at run
      · obtain ⟨_, _, rfl⟩ := run
        exact overlooked_replaceAccount [.rewards] found rfl
      · next nonzero =>
        have := owed nonzero
        obtain ⟨_, _, _, _, rfl⟩ := run
        exact overlooked_replaceAccount [.owed] found rfl
    | dollar =>
      simp only [modifyRewardBalance, bind_eq_ok, require_eq_ok, lift_eq_ok, putAccount,
        modify_eq_ok, and_assoc, exists_and_left, exists_eq_left', exists_const] at run
      obtain ⟨_, _, _, rfl⟩ := run
      exact overlooked_replaceAccount [.rewards] found rfl
    | vests => exact (throw_eq_ok.mp run).elim

instance [Aside aside (.account .rewards)] [Aside aside (.account .owed)] (valueDelta : Asset)
    (shareDelta : ShareType) : Respects R (adjustRewardBalance name valueDelta shareDelta) :=
  overlooked_adjustRewardBalance fun _ => inferInstance

/-- A reward that comes without shares. -/
instance [Aside aside (.account .rewards)] (valueDelta : Asset) :
    Respects R (adjustRewardBalance name valueDelta 0) :=
  overlooked_adjustRewardBalance (absurd rfl)

end Adjustments

section Payments

variable [∀ name delta, Respects R (adjustBalance name delta)]

instance (name : AccountName) (amount : Asset) (message : String) :
    Respects R (spend name amount message) := by
  dsimp only [spend]
  infer_instance

instance (order : LimitOrder) [Respects R (eraseLimitOrder order)] :
    Respects R (cancelOrder order) := by
  dsimp only [cancelOrder]
  infer_instance

instance (escrow : Escrow) [Respects R (eraseEscrow escrow)] : Respects R (refundEscrow escrow) := by
  dsimp only [refundEscrow]
  infer_instance

instance [∀ name value, Respects R (adjustRewardBalance name value 0)]
    [∀ delta, Respects R (adjustSupply delta false)] (toAccount : AccountName) (liquid : ShareType)
    (toRewardBalance : Bool) : Respects R (createDollar toAccount liquid toRewardBalance) := by
  dsimp only [createDollar, credit]
  infer_instance

section Orders

variable [∀ order, Respects R (eraseLimitOrder order)] [∀ order, Respects R (putLimitOrder order)]

instance (order : LimitOrder) (pays receives : Asset) : Respects R (fillOrder order pays receives) := by
  dsimp only [fillOrder]
  infer_instance

instance (owner : AccountName) (orderid : Nat) (orders : List LimitOrder) :
    Respects R (matchWithEach owner orderid orders) := by
  induction orders with
  | nil =>
    unfold matchWithEach
    infer_instance
  | cons order rest inductionHypothesis =>
    unfold matchWithEach
    dsimp only [matchOrders]
    infer_instance

end Orders

end Payments

end Balances

/-! ### Votes and vesting -/

section Votes

variable {R : ChainState → ChainState → Prop} [Std.Refl R] [IsTrans ChainState R]

instance {aside : Aspect → Prop} [Overlooks R aside] [Aside aside (.part .witnesses)]
    [Aside aside (.witness .votes)] [Aside aside (.witness .lap)] (name : AccountName)
    (delta : ShareType) : Respects R (adjustWitnessVote name delta) :=
  .step inferInstance fun _ => overlooked_modifyWitness [.votes, .lap] fun _ =>
    .bind fun _ => .bind fun _ => .bind fun _ => .pure rfl

instance {aside : Aspect → Prop} [Overlooks R aside] [Aside aside (.part .accounts)]
    [Aside aside (.account .ballots)] [Aside aside (.part .witnessVotes)] (account : AccountName) :
    Respects R (clearWitnessVotes account) :=
  .step (overlooked_write .witnessVotes rfl) fun _ =>
    overlooked_updateAccount [.ballots] fun _ => rfl

variable [∀ name delta, Respects R (adjustWitnessVote name delta)]

instance (account : AccountName) (delta : ShareType) :
    Respects R (adjustWitnessVotes account delta) := by
  dsimp only [adjustWitnessVotes]
  infer_instance

section Proxies

variable [∀ name place delta,
  Respects R (modifyAccount name fun proxy => proxy.addProxied place delta)] (delta : ShareType)

instance (remaining : Nat) (name : AccountName) :
    Respects R (adjustProxiedFrom delta remaining name) := by
  induction remaining generalizing name with
  | zero =>
    unfold adjustProxiedFrom
    infer_instance
  | succ further inductionHypothesis =>
    unfold adjustProxiedFrom
    infer_instance

instance (name : AccountName) : Respects R (adjustProxiedWitnessVotes name delta) :=
  inferInstanceAs (Respects R (adjustProxiedFrom delta 4 name))

end Proxies

section Arrays

variable [∀ name delta depth,
  Respects R (modifyAccount name fun proxy => proxy.addProxiedDeltas delta depth)]
  (delta : VoteDeltas)

instance (remaining : Nat) (name : AccountName) :
    Respects R (adjustProxiedDeltasFrom delta remaining name) := by
  induction remaining generalizing name with
  | zero =>
    unfold adjustProxiedDeltasFrom
    infer_instance
  | succ further inductionHypothesis =>
    unfold adjustProxiedDeltasFrom
    infer_instance

instance (name : AccountName) : Respects R (adjustProxiedDeltas name delta) :=
  inferInstanceAs (Respects R (adjustProxiedDeltasFrom delta 4 name))

end Arrays

end Votes

section Vesting

variable {R : ChainState → ChainState → Prop} [Std.Refl R] [IsTrans ChainState R]
  {aside : Aspect → Prop} [Overlooks R aside] [Aside aside (.part .dgp)] (toAccount : AccountName)
  (liquid : Asset)

instance [Aside aside (.global .fund)] [∀ name delta, Respects R (adjustBalance name delta)]
    [∀ name delta, Respects R (adjustProxiedWitnessVotes name delta)] :
    Respects R (createVesting toAccount liquid) := by
  dsimp only [createVesting]
  repeat with_reducible refine .step inferInstance fun _ => ?_
  exact .step (overlooked_modifyDgp [.fund] fun _ => .bind fun _ => .bind fun _ => .pure rfl)
    fun _ => inferInstance

instance [Aside aside (.global .pending)]
    [∀ name value shares, Respects R (adjustRewardBalance name value shares)] :
    Respects R (createRewardVesting toAccount liquid) := by
  dsimp only [createRewardVesting]
  repeat with_reducible refine .step inferInstance fun _ => ?_
  exact .step (overlooked_modifyDgp [.pending] fun _ => .bind fun _ => .bind fun _ => .pure rfl)
    fun _ => inferInstance

omit [Std.Refl R] [IsTrans ChainState R] in
instance [Aside aside (.global .fund)] (taken shares : ShareType) :
    Respects R (takeFromFund taken shares) :=
  overlooked_modifyDgp [.fund] fun _ => .bind fun _ => .bind fun _ => .pure rfl

end Vesting

/-! ### Content, authorities and new accounts -/

section Content

variable {R : ChainState → ChainState → Prop} [Std.Refl R] [IsTrans ChainState R]

section Comments

variable [∀ comment, Respects R (putComment comment)]

instance (count : Nat → Nat) (depth : Nat) (parent : Comment) :
    Respects R (countReply count depth parent) := by
  induction depth generalizing parent with
  | zero =>
    unfold countReply
    infer_instance
  | succ depth inductionHypothesis =>
    unfold countReply
    infer_instance

instance (rootComment : Nat) (absRshares : Int64) :
    Respects R (addChildrenAbsRshares rootComment absRshares) := by
  dsimp only [addChildrenAbsRshares]
  infer_instance

instance (key : AccountName × Text) (median : Price) (dollars : Asset)
    (authorLiquid curationTokens totalBeneficiary authorTokens : ShareType) :
    Respects R (recordPayout key median dollars authorLiquid curationTokens totalBeneficiary
      authorTokens) := by
  dsimp only [recordPayout]
  infer_instance

end Comments

variable {aside : Aspect → Prop} [Overlooks R aside]

section Authorities

variable [Aside aside (.part .accountAuthorities)]

instance [Aside aside (.part .ownerHistories)] [Aside aside (.part .nextHistoryId)]
    (account : AccountName) (auth : Authority) : Respects R (updateOwnerAuthority account auth) := by
  have recorded : Respects R (recordOwnerHistory account) :=
    .step inferInstance fun _ => .step inferInstance fun _ => respects_create fun _ added _ =>
      overlooked_set_set .ownerHistories .nextHistoryId rfl added _
  dsimp only [updateOwnerAuthority]
  infer_instance

/-- A new account is blank but for its record, its power to vote and what it is lent. -/
instance [accounts : Aside aside (.part .accounts)] [names : Aside aside .names]
    [record : Aside aside (.account .record)] [power : Aside aside (.account .power)]
    [lent : Aside aside (.account .received)] (name creator : AccountName)
    (owner active posting : Authority) (received : ShareType) :
    Respects R (createAccount name creator owner active posting received) := by
  refine .step inferInstance fun state => .step (respects_create fun s added inserted => ?_)
    fun _ => inferInstance
  refine Overlooks.holds fun aspect seen => ?_
  cases aspect with
  | part part =>
    refine @Part.get_set_of_ne s .accounts part added ?_
    rintro rfl
    exact seen accounts.holds
  | names => exact absurd names.holds seen
  | account facet =>
    refine Table.facetOf_insert? inserted ?_
    cases facet with
    | record => exact absurd record.holds seen
    | power => exact absurd power.holds seen
    | received => exact absurd lent.holds seen
    | _ => rfl
  | owners | witness | global => rfl

end Authorities

omit [Std.Refl R] [IsTrans ChainState R] in
/-- A new witness is blank but for its record. -/
theorem overlooked_insertWitness {witness : Witness} [witnesses : Aside aside (.part .witnesses)]
    [owners : Aside aside .owners] [record : Aside aside (.witness .record)]
    (fresh : without [.record] witness = without [.record] (Witness.make witness.owner)) :
    Respects R (insertWitness witness) := by
  refine respects_create fun s added inserted => Overlooks.holds fun aspect seen => ?_
  cases aspect with
  | part part =>
    refine @Part.get_set_of_ne s .witnesses part added ?_
    rintro rfl
    exact seen witnesses.holds
  | owners => exact absurd owners.holds seen
  | witness facet =>
    by_cases isRecord : facet = .record
    · subst isRecord
      exact absurd record.holds seen
    · refine Table.facetOf_insert? inserted ?_
      rw [only_eq_of_without fresh (by simpa using isRecord)]
      cases facet <;> rfl
  | names | account | global => rfl

instance [Aside aside (.part .delegationExpirations)] [Aside aside (.part .nextExpirationId)]
    (delegator : AccountName) (shares : ShareType) (time : TimePointSec) :
    Respects R (insertDelegationExpiration delegator shares time) :=
  .step inferInstance fun _ => respects_create fun _ added _ =>
    overlooked_set_set .delegationExpirations .nextExpirationId rfl added _

end Content

/-! ### Steps of a block -/

section Maintenance

variable {R : ChainState → ChainState → Prop} [Std.Refl R] [IsTrans ChainState R]

instance [∀ order, Respects R (cancelOrder order)] : Respects R clearExpiredOrders := by
  dsimp only [clearExpiredOrders]
  infer_instance

instance [∀ escrow, Respects R (refundEscrow escrow)] : Respects R expireEscrowRatification := by
  dsimp only [expireEscrowRatification]
  infer_instance

instance (held : Account → Asset) (adjust : Asset → Chain Unit)
    [∀ taken, Respects R (adjust taken)] : Respects R (burn held adjust) := by
  dsimp only [burn]
  infer_instance

instance [∀ fund, Respects R (putRewardFund fund)] (reward : ShareType) (funds : List RewardFund)
    (used : ShareType) : Respects R (payEachFund reward funds used) := by
  induction funds generalizing used with
  | nil =>
    unfold payEachFund
    infer_instance
  | cons fund rest inductionHypothesis =>
    unfold payEachFund
    infer_instance

instance [∀ name delta, Respects R (adjustBalance name delta)]
    [∀ request, Respects R (eraseConvertRequest request)] (median : Price)
    (requests : List ConvertRequest) (nets : Asset × Asset) :
    Respects R (convertEach median requests nets) := by
  induction requests generalizing nets with
  | nil =>
    unfold convertEach
    infer_instance
  | cons request rest inductionHypothesis =>
    unfold convertEach
    infer_instance

instance [∀ toAccount tokens, Respects R (createRewardVesting toAccount ⟨tokens, .liquid⟩)]
    (authorTokens : ShareType) (routes : List BeneficiaryRoute) (total : ShareType) :
    Respects R (payEachBeneficiary authorTokens routes total) := by
  induction routes generalizing total with
  | nil =>
    unfold payEachBeneficiary
    infer_instance
  | cons route rest inductionHypothesis =>
    unfold payEachBeneficiary
    infer_instance

variable {aside : Aspect → Prop} [Overlooks R aside]

omit [Std.Refl R] [IsTrans ChainState R] in
instance [Aside aside (.part .blockSummaries)] (block : SignedBlock) :
    Respects R (createBlockSummary block) :=
  overlooked_write .blockSummaries rfl

omit [Std.Refl R] [IsTrans ChainState R] in
instance [Aside aside (.part .transactions)] : Respects R clearExpiredTransactions :=
  overlooked_write .transactions rfl

instance [Aside aside (.part .feedHistory)] : Respects R updateMedianFeed := by
  have recorded (feed : Price) : Respects R (recordFeed feed) := by
    refine ⟨fun s u t run => ?_⟩
    simp only [recordFeed, bind_eq_ok, get_eq_ok, lift_eq_ok, set_eq_ok] at run
    obtain ⟨_, _, ⟨rfl, rfl⟩, _, _, ⟨_, rfl⟩, rfl⟩ := run
    exact overlooked_set .feedHistory rfl _
  dsimp only [updateMedianFeed]
  infer_instance

section Schedule

variable [Aside aside (.part .witnesses)]

instance [Aside aside (.witness .record)] (block : SignedBlock) :
    Respects R (processHeaderExtensions block) := by
  have extended (extension : BlockHeaderExtension) : Respects R
      (updateWitness block.witness.toStdString fun witness => witness.withExtension extension) :=
    overlooked_updateWitness [.record] fun witness => by cases extension <;> rfl
  dsimp only [processHeaderExtensions]
  refine @Respects.forM _ _ _ _ _ _ _ _ fun extension => ?_
  split <;> infer_instance

instance [Aside aside (.witness .record)] (producer : AccountName) (missedBlocks : Nat) :
    Respects R (countMissedSlots producer missedBlocks) := by
  have missed (name : AccountName) (head : Nat) : Respects R
      (updateWitness name fun witness => witness.missedSlot head) :=
    overlooked_updateWitness [.record] fun _ => rfl
  dsimp only [countMissedSlots]
  infer_instance

instance [Aside aside (.witness .record)] [Aside aside (.witness .confirmed)] (name : AccountName)
    (block : SignedBlock) : Respects R (updateSigningWitness name block) :=
  .step inferInstance fun _ => overlooked_updateWitness [.record, .confirmed] fun _ => rfl

omit [Std.Refl R] [IsTrans ChainState R] in
instance [Aside aside (.witness .schedule)] (type : WitnessScheduleType) (name : AccountName) :
    Respects R (setScheduleType type name) :=
  overlooked_updateWitness [.schedule] fun _ => rfl

variable [Aside aside (.witness .lap)]

instance (newVirtualTime : UInt128) (names : List AccountName) :
    Respects R (advanceProcessed newVirtualTime names) := by
  induction names with
  | nil =>
    unfold advanceProcessed
    infer_instance
  | cons name rest inductionHypothesis =>
    have advanced (lap : UInt128) : Respects R (updateWitness name fun witness => { witness with
        virtualPosition := 0
        virtualLastUpdate := newVirtualTime
        virtualScheduledTime := newVirtualTime + lap }) :=
      overlooked_updateWitness [.lap] fun _ => rfl
    unfold advanceProcessed
    infer_instance

variable [Aside aside (.part .witnessSchedule)]

instance : Respects R resetVirtualScheduleTime := by
  refine .step (overlooked_write .witnessSchedule rfl) fun _ => .step inferInstance fun _ =>
    @Respects.forM _ _ _ _ _ _ _ _ fun witness => ?_
  exact overlooked_modifyWitness [.lap] fun _ => .bind fun _ => .pure rfl

instance [Aside aside (.witness .schedule)] : Respects R selectWitnesses := by
  dsimp only [selectWitnesses]
  repeat with_reducible refine .step inferInstance fun _ => ?_
  infer_instance

instance [Aside aside (.witness .schedule)] [Aside aside (.part .dgp)] [Aside aside (.global .rates)]
    [Aside aside (.part .hardforks)] : Respects R updateWitnessSchedule := by
  have median : Respects R updateMedianWitnessProps := by
    refine .step inferInstance fun _ => .step inferInstance fun _ => .modify fun s => ?_
    have both (dgp : DynamicGlobalProperties) (schedule : WitnessSchedule)
        (same : without [.rates] dgp = without [.rates] s.dgp) :
        R s { s with dgp := dgp, witnessSchedule := schedule } :=
      IsTrans.trans _ _ _ (overlooked_setDgp [.rates] same)
        (overlooked_set (R := R) .witnessSchedule rfl schedule)
    exact both _ _ rfl
  dsimp only [updateWitnessSchedule, updateWitnessSchedule4]
  refine .step inferInstance fun _ => .guarded fun _ => ?_
  repeat with_reducible refine .step inferInstance fun _ => ?_
  refine .step (.modify fun s => ?_) fun _ => median
  exact overlooked_set_set .witnessSchedule .hardforks rfl (s.witnessSchedule.renewed _ _ _ _ _) _

end Schedule

section Global

variable [Aside aside (.part .dgp)]

omit [Std.Refl R] [IsTrans ChainState R] in
theorem overlooked_produced [Aside aside (.global .producer)] (producer : AccountName) :
    Respects R (modify fun state : ChainState =>
      { state with dgp := { state.dgp with currentWitness := producer } } : Chain PUnit) :=
  .modify fun _ => overlooked_setDgp [.producer] rfl

instance [Aside aside (.global .irreversible)] : Respects R updateLastIrreversibleNum := by
  have moved (number : ChainState → Nat) : Respects R (modify fun state => { state with
      dgp := { state.dgp with lastIrreversibleBlockNum := number state } } : Chain PUnit) :=
    .modify fun _ => overlooked_setDgp [.irreversible] rfl
  dsimp only [updateLastIrreversibleNum]
  infer_instance

theorem recordSlots_without (dgp : DynamicGlobalProperties) (missedBlocks : Nat) :
    without [.head, .slots] (dgp.recordSlots missedBlocks) = without [.head, .slots] dgp := by
  unfold DynamicGlobalProperties.recordSlots
  induction List.range (missedBlocks + 1) generalizing dgp with
  | nil => rfl
  | cons slot rest inductionHypothesis => exact inductionHypothesis _

instance [Aside aside (.part .witnesses)] [Aside aside (.witness .record)]
    [Aside aside (.global .head)] [Aside aside (.global .slots)] (skip : SkipFlags)
    (block : SignedBlock) : Respects R (updateGlobalDynamicData skip block) := by
  dsimp only [updateGlobalDynamicData]
  refine .step inferInstance fun state => .step inferInstance fun _ => .step (.modify fun s => ?_)
    fun _ => inferInstance
  exact overlooked_setDgp [.head, .slots] (recordSlots_without s.dgp _)

instance [Aside aside (.global .virtual)] [Aside aside (.global .rates)] :
    Respects R updateVirtualSupply := by
  refine .step inferInstance fun _ => overlooked_modifyDgp [.virtual, .rates] fun _ => ?_
  split
  · exact .pure rfl
  · repeat refine .bind fun _ => ?_
    exact .pure rfl

instance [Aside aside (.part .accounts)] [Aside aside (.account .shares)]
    [Aside aside (.global .fund)] : Respects R burnVestingShares := by
  dsimp only [burnVestingShares]
  refine .step inferInstance fun _ => @Respects.ite _ _ _ _ _ _ _ _ ?_ inferInstance
  repeat with_reducible refine .step inferInstance fun _ => ?_
  exact .step (overlooked_modifyDgp [.fund] fun _ => .bind fun _ => .bind fun _ => .pure rfl)
    fun _ => .step (overlooked_updateAccount [.shares] fun _ => rfl) fun _ => inferInstance

instance [Aside aside (.part .accounts)] [Aside aside (.account .owed)]
    [Aside aside (.global .pending)] : Respects R burnRewardShares := by
  dsimp only [burnRewardShares]
  refine .step inferInstance fun _ => @Respects.ite _ _ _ _ _ _ _ _ ?_ inferInstance
  exact .step (overlooked_modifyDgp [.pending] fun _ => .bind fun _ => .bind fun _ => .pure rfl)
    fun _ => .step (overlooked_updateAccount [.owed] fun _ => rfl) fun _ => inferInstance

instance [Aside aside (.global .supply)] [Aside aside (.global .virtual)]
    [Aside aside (.global .fund)] [∀ fund, Respects R (putRewardFund fund)]
    [∀ toAccount liquid, Respects R (createVesting toAccount liquid)] : Respects R processFunds := by
  dsimp only [processFunds, payRewardFunds]
  repeat with_reducible refine .step inferInstance fun _ => ?_
  refine .step (overlooked_modifyDgp [.supply, .virtual, .fund] fun _ => ?_) fun _ => inferInstance
  exact .bind fun _ => .bind fun _ => .bind fun _ => .pure rfl

instance [Aside aside (.global .supply)] [Aside aside (.global .virtual)]
    [∀ median requests nets, Respects R (convertEach median requests nets)] :
    Respects R processConversions := by
  dsimp only [processConversions]
  refine .step inferInstance fun _ => .guarded fun _ => .step inferInstance fun _ => ?_
  refine overlooked_modifyDgp [.supply, .virtual] fun _ => ?_
  repeat refine .bind fun _ => ?_
  exact .pure rfl

end Global

section Burning

variable [∀ delta, Respects R (adjustSupply delta false)]

instance (burned : ShareType) (symbol : AssetSymbol) : Respects R (shrinkSupply burned symbol) := by
  dsimp only [shrinkSupply]
  infer_instance

instance [∀ name delta, Respects R (adjustBalance name delta)]
    [∀ name delta, Respects R (adjustSavingsBalance name delta)]
    [∀ name value, Respects R (adjustRewardBalance name value 0)] [Respects R burnVestingShares]
    [Respects R burnRewardShares] : Respects R clearNullAccountBalance := by
  dsimp only [clearNullAccountBalance]
  infer_instance

end Burning

/-! ### Payouts and withdrawals -/

section Accounts

variable [Aside aside (.part .accounts)]

section Payouts

variable [Aside aside (.account .record)]
  [∀ toAccount tokens, Respects R (createRewardVesting toAccount ⟨tokens, .liquid⟩)]

instance (maxRewards : ShareType) (totalWeight : Nat) (votes : List CommentVote)
    (unclaimed : ShareType) :
    Respects R (payEachCurator maxRewards totalWeight votes unclaimed) := by
  have counted (vote : CommentVote) (claim : ShareType) :
      Respects R (modifyAccount vote.voter fun account => do
        let curationRewards ← account.curationRewards.add claim
        return { account with curationRewards := curationRewards }) :=
    overlooked_modifyAccount [.record] fun _ => .bind fun _ => .pure rfl
  induction votes generalizing unclaimed with
  | nil =>
    unfold payEachCurator
    infer_instance
  | cons vote rest inductionHypothesis =>
    unfold payEachCurator
    infer_instance

variable [∀ toAccount liquid toReward, Respects R (createDollar toAccount liquid toReward)]
  [∀ comment, Respects R (putComment comment)]

instance (comment : Comment) (fund : RewardFund) (reward : ShareType) :
    Respects R (payReward comment fund reward) := by
  dsimp only [payReward, payCurators, payAllCurators]
  repeat with_reducible refine .step inferInstance fun _ => ?_
  exact .step (overlooked_modifyAccount [.record] fun _ => .bind fun _ => .pure rfl)
    fun _ => inferInstance

instance (comment : Comment) (fund : RewardFund) (recentClaims : UInt128)
    (rewardBalance : ShareType) :
    Respects R (claimReward comment fund recentClaims rewardBalance) := by
  dsimp only [claimReward]
  infer_instance

end Payouts

end Accounts

section Cashouts

variable [∀ comment fund recentClaims rewardBalance,
    Respects R (claimReward comment fund recentClaims rewardBalance)]
  [∀ comment, Respects R (putComment comment)] [Aside aside (.part .commentVotes)]

instance (recentClaims : UInt128) (rewardBalance : ShareType) (key : AccountName × Text) :
    Respects R (cashoutCommentHelper recentClaims rewardBalance key) := by
  dsimp only [cashoutCommentHelper]
  repeat with_reducible refine .step inferInstance fun _ => ?_
  exact .step (overlooked_write .commentVotes rfl) fun _ => inferInstance

instance (recentClaims : UInt128) (rewardBalance : ShareType) (comments : List Comment)
    (awarded : ShareType) :
    Respects R (cashoutEach recentClaims rewardBalance comments awarded) := by
  induction comments generalizing awarded with
  | nil =>
    unfold cashoutEach
    infer_instance
  | cons comment rest inductionHypothesis =>
    unfold cashoutEach
    infer_instance

instance [∀ fund, Respects R (putRewardFund fund)] : Respects R processCommentCashout := by
  dsimp only [processCommentCashout]
  infer_instance

end Cashouts

section Accounts

variable [Aside aside (.part .accounts)]

section Withdrawals

variable [Aside aside (.account .shares)]
  [∀ name delta, Respects R (adjustProxiedWitnessVotes name delta)]

omit [Aside aside (.part .accounts)] [Aside aside (.account .shares)] [Overlooks R aside] in
theorem respects_depositVests {toWithdraw deposited : ShareType} {routes : List WithdrawVestingRoute}
    (added : ∀ name (shares : ShareType), 0 < shares → Respects R (modifyAccount name fun account => do
      let balance ← account.vestingShareBalance.add shares
      return { account with vestingShareBalance := balance })) :
    Respects R (depositVests toWithdraw routes deposited) := by
  induction routes generalizing deposited with
  | nil => exact Respects.pure _
  | cons route rest inductionHypothesis =>
    unfold depositVests
    refine @Respects.ite _ _ _ _ _ _ _ _ ?_ inferInstance
    refine .step inferInstance fun toDeposit => .step inferInstance fun _ =>
      .step (.guarded fun positive => ?_) fun _ => inferInstance
    exact .step (added route.toAccount toDeposit positive) fun _ => inferInstance

instance (toWithdraw : ShareType) (routes : List WithdrawVestingRoute) (deposited : ShareType) :
    Respects R (depositVests toWithdraw routes deposited) :=
  respects_depositVests fun _ _ _ =>
    overlooked_modifyAccount [.shares] fun _ => .bind fun _ => .pure rfl

variable [Aside aside (.account .liquid)] [∀ liquid shares, Respects R (takeFromFund liquid shares)]

omit [∀ name delta, Respects R (adjustProxiedWitnessVotes name delta)]
  [Aside aside (.account .shares)] in
instance (toWithdraw : ShareType) (routes : List WithdrawVestingRoute) (deposited : ShareType) :
    Respects R (depositLiquid toWithdraw routes deposited) := by
  induction routes generalizing deposited with
  | nil =>
    unfold depositLiquid
    infer_instance
  | cons route rest inductionHypothesis =>
    unfold depositLiquid
    infer_instance

variable [Aside aside (.account .withdrawal)]

instance (account : Account) : Respects R (withdrawFrom account) := by
  dsimp only [withdrawFrom]
  repeat with_reducible refine .step inferInstance fun _ => ?_
  refine .step (overlooked_modifyAccount [.shares, .liquid, .withdrawal] fun _ => ?_)
    fun _ => inferInstance
  exact .bind fun _ => .bind fun _ => .bind fun _ => .pure rfl

instance (fuel : Nat) (name : Option AccountName) : Respects R (withdrawEach fuel name) := by
  induction fuel generalizing name with
  | zero => cases name <;> unfold withdrawEach <;> infer_instance
  | succ fuel inductionHypothesis => cases name <;> unfold withdrawEach <;> infer_instance

instance : Respects R processVestingWithdrawals := by
  dsimp only [processVestingWithdrawals]
  infer_instance

end Withdrawals

instance [Aside aside (.account .requests)] [∀ name delta, Respects R (adjustBalance name delta)]
    [∀ account requestId, Respects R (eraseSavingsWithdraw account requestId)] :
    Respects R processSavingsWithdraws := by
  dsimp only [processSavingsWithdraws]
  refine .step inferInstance fun _ => @Respects.forM _ _ _ _ _ _ _ _ fun withdraw => ?_
  exact .step inferInstance fun _ =>
    .step (overlooked_updateAccount [.requests] fun _ => rfl) fun _ => inferInstance

instance [Aside aside (.account .delegated)] [Aside aside (.part .delegationExpirations)] :
    Respects R clearExpiredDelegations := by
  dsimp only [clearExpiredDelegations]
  refine .step inferInstance fun _ => @Respects.forM _ _ _ _ _ _ _ _ fun expiration => ?_
  exact .step (overlooked_modifyAccount [.delegated] fun _ => .bind fun _ => .pure rfl)
    fun _ => overlooked_write .delegationExpirations rfl

instance [Aside aside (.account .record)] [Aside aside (.part .ownerHistories)]
    [Aside aside (.part .recoveryRequests)] [Aside aside (.part .changeRecoveryRequests)] :
    Respects R accountRecoveryProcessing := by
  dsimp only [accountRecoveryProcessing]
  refine .step (.modify fun s => ?_) fun _ => .step inferInstance fun _ =>
    @Respects.forM _ _ _ _ _ _ _ _ fun request => ?_
  · exact overlooked_set_set .ownerHistories .recoveryRequests rfl (s.ownerHistories.dropWhile _)
      (s.recoveryRequests.filter _)
  · exact .step (overlooked_updateAccount [.record] fun _ => rfl)
      fun _ => overlooked_write .changeRecoveryRequests rfl

instance [Aside aside (.account .record)] [Aside aside (.account .proxy)]
    [Aside aside (.part .declineRequests)] [∀ name delta, Respects R (adjustProxiedDeltas name delta)]
    [∀ name, Respects R (clearWitnessVotes name)] : Respects R processDeclineVotingRights := by
  dsimp only [processDeclineVotingRights, declineVotingRights]
  refine .step inferInstance fun _ => @Respects.forM _ _ _ _ _ _ _ _ fun request => ?_
  repeat with_reducible refine .step inferInstance fun _ => ?_
  exact .step (overlooked_updateAccount [.record, .proxy] fun _ => rfl)
    fun _ => overlooked_write .declineRequests rfl

end Accounts

end Maintenance

end Zattera
