/-
This file models the evaluators around vesting shares: withdrawing them and
routing what is withdrawn, voting for witnesses directly or through a proxy,
declining to vote, claiming rewards, and delegating shares to another account.
-/

import Mathlib.Data.List.Dedup
import Zattera.Chain.Market

namespace Zattera

open Program

/-! ### Withdrawals -/

/-- The weekly rate at which shares are withdrawn, over thirteen weeks. -/
def newWithdrawRate (shares : ShareType) : Except ChainError ShareType := do
  let rate ← shares.div 13
  return if rate = 0 then 1 else rate

def withdrawVestingEvaluator (o : WithdrawVestingOperation) : Chain Unit := do
  let account ← getAccount o.account
  require (0 ≤ o.vestingShares.amount) (.assertion
    "Cannot withdraw negative VESTS. account: $\x7baccount\x7d, vests:$\x7bvests\x7d")
  require (0 ≤ account.vestingShareBalance)
    (.assertion "Account does not have sufficient Zattera Power for withdraw.")
  let undelegated ← account.vestingShareBalance.sub account.delegatedVestingShareBalance
  requireAtLeast ⟨undelegated, .vests⟩ o.vestingShares
    "Account does not have sufficient Zattera Power for withdraw."
  if o.vestingShares.amount = 0 then do
    require (account.vestingWithdrawRate ≠ 0)
      (.assertion "This operation would not change the vesting withdraw rate.")
    updateAccount o.account fun account => { account with
      vestingWithdrawRate := 0
      nextVestingWithdrawal := TimePointSec.maximum
      toWithdraw := 0
      withdrawn := 0 }
  else do
    let rate ← newWithdrawRate o.vestingShares.amount
    require (account.vestingWithdrawRate ≠ rate)
      (.assertion "This operation would not change the vesting withdraw rate.")
    let now ← headBlockTime
    updateAccount o.account fun account => { account with
      vestingWithdrawRate := rate
      nextVestingWithdrawal := now + 604800
      toWithdraw := o.vestingShares.amount
      withdrawn := 0 }

/-- The percentages of an account's routes, added up in sixteen bits. -/
def ChainState.totalRoutePercent (state : ChainState) (account : AccountName) : Nat :=
  ((state.withdrawRoutes.objects.filter (·.fromAccount = account)).map
    WithdrawVestingRoute.percent).sum % 65536

def insertWithdrawRoute (route : WithdrawVestingRoute) : Chain Unit :=
  create ChainState.withdrawRoutes (fun state added => { state with withdrawRoutes := added }) route

/-- Add, change or remove the route an operation names. -/
def storeWithdrawRoute (o : SetWithdrawVestingRouteOperation) (account : Account) : Chain Unit := do
  let route : WithdrawVestingRoute := ⟨o.fromAccount, o.toAccount, o.percent, o.autoVest⟩
  match (← get).withdrawRoutes.find? (o.fromAccount, o.toAccount) with
  | none => do
    require (o.percent ≠ 0) (.assertion "Cannot create a 0% destination.")
    require (account.withdrawRoutes < 10)
      (.assertion "Account already has the maximum number of routes.")
    insertWithdrawRoute route
    updateAccount o.fromAccount fun account =>
      { account with withdrawRoutes := account.withdrawRoutes + 1 }
  | some _ =>
    if o.percent = 0 then do
      modify fun state => { state with
        withdrawRoutes := state.withdrawRoutes.erase (o.fromAccount, o.toAccount) }
      updateAccount o.fromAccount fun account =>
        { account with withdrawRoutes := account.withdrawRoutes - 1 }
    else
      modify fun state => { state with withdrawRoutes := state.withdrawRoutes.replace route }

def setWithdrawVestingRouteEvaluator (o : SetWithdrawVestingRouteOperation) : Chain Unit := do
  let account ← getAccount o.fromAccount
  discard (getAccount o.toAccount)
  storeWithdrawRoute o account
  require ((← get).totalRoutePercent o.fromAccount ≤ 10000)
    (.assertion "More than 100% of vesting withdrawals allocated to destinations.")

/-! ### Votes for witnesses -/

/-- What an account has to vote with: its own shares and those proxied to it. -/
def Account.voteDeltas (account : Account) : VoteDeltas :=
  #v[account.vestingShareBalance] ++ account.proxiedVsfVotes

def VoteDeltas.neg (delta : VoteDeltas) : Except ChainError VoteDeltas := delta.mapM ShareType.neg

/-- The walk along the new proxy's own proxies, which may not come back to a member of the chain
nor make the chain longer than four. `further` bounds the steps left. -/
def requireNoProxyLoop : Nat → List AccountName → AccountName → Chain Unit
  | further, chain, name => do
    let account ← getAccount name
    if account.proxy.size ≠ 0 then do
      let next ← getAccount account.proxy
      require (next.name ∉ chain) (.assertion "This proxy would create a proxy loop.")
      match further with
      | 0 => throw (.assertion "Proxy chain is too long.")
      | further + 1 => requireNoProxyLoop further (next.name :: chain) next.name
    else return ()

def accountWitnessProxyEvaluator (o : AccountWitnessProxyOperation) : Chain Unit := do
  let account ← getAccount o.account
  require (account.proxy ≠ o.proxy) (.assertion "Proxy must change.")
  require account.canVote
    (.assertion "Account has declined the ability to vote and cannot proxy votes.")
  let votes := account.voteDeltas
  let delta ← votes.neg
  adjustProxiedDeltas o.account delta
  if o.proxy.size ≠ 0 then do
    let newProxy ← getAccount o.proxy
    let chain := [o.account, newProxy.name].dedup
    requireNoProxyLoop (4 - chain.length) chain o.proxy
    clearWitnessVotes o.account
    updateAccount o.account fun account => { account with proxy := o.proxy }
    adjustProxiedDeltas o.account (← VoteDeltas.neg delta)
  else
    updateAccount o.account fun account => { account with proxy := o.proxy }

def insertWitnessVote (vote : WitnessVote) : Chain Unit :=
  create ChainState.witnessVotes (fun state added => { state with witnessVotes := added }) vote

def accountWitnessVoteEvaluator (o : AccountWitnessVoteOperation) : Chain Unit := do
  let voter ← getAccount o.account
  require (voter.proxy.size = 0) (.assertion
    "A proxy is currently set, please clear the proxy before voting for a witness.")
  whenever o.approve do
    require voter.canVote (.assertion "Account has declined its voting rights.")
  let witness ← getWitness o.witness
  let vote : WitnessVote := ⟨voter.name, witness.owner⟩
  match (← get).witnessVotes.find? vote with
  | none => do
    require o.approve (.assertion
      "Vote doesn't exist, user must indicate a desire to approve witness.")
    require (voter.witnessesVotedFor < 30)
      (.assertion "Account has voted for too many witnesses.")
    insertWitnessVote vote
    let weight ← voter.witnessVoteWeight
    adjustWitnessVote o.witness weight
    updateAccount voter.name fun voter =>
      { voter with witnessesVotedFor := voter.witnessesVotedFor + 1 }
  | some _ => do
    require (o.approve = false) (.assertion
      "Vote currently exists, user must indicate a desire to reject witness.")
    let weight ← voter.witnessVoteWeight
    let taken ← weight.neg
    adjustWitnessVote o.witness taken
    updateAccount voter.name fun voter =>
      { voter with witnessesVotedFor := voter.witnessesVotedFor - 1 }
    modify fun state => { state with witnessVotes := state.witnessVotes.erase vote }

def insertDeclineRequest (request : DeclineVotingRightsRequest) : Chain Unit :=
  create ChainState.declineRequests
    (fun state added => { state with declineRequests := added }) request

def declineVotingRightsEvaluator (o : DeclineVotingRightsOperation) : Chain Unit := do
  let account ← getAccount o.account
  let effectiveDate := (← headBlockTime) + 2592000
  match (← get).declineRequests.find? account.name with
  | none => do
    require o.decline (.assertion "Cannot cancel the request because it does not exist.")
    insertDeclineRequest ⟨account.name, effectiveDate⟩
  | some _ => do
    require (o.decline = false)
      (.assertion "Cannot create new request because one already exists.")
    modify fun state => { state with declineRequests := state.declineRequests.erase account.name }

/-! ### Rewards and delegations -/

/-- The liquid value that moves with a claim of reward shares: all of it with all the shares,
otherwise in proportion, rounded down. -/
def Account.rewardLiquidToMove (account : Account) (rewardVests : ShareType) :
    Except ChainError ShareType :=
  if rewardVests = account.rewardVestingShareBalance then .ok account.rewardVestingLiquidBalance
  else do
    let moved ← UInt128.div
      (UInt128.ofInt64 rewardVests * UInt128.ofInt64 account.rewardVestingLiquidBalance)
      (UInt128.ofInt64 account.rewardVestingShareBalance)
    UInt128.toShareType moved

/-- Claimed shares become the account's own. -/
def Account.claimShares (account : Account) (shares liquid : ShareType) :
    Except ChainError Account := do
  let owned ← account.vestingShareBalance.add shares
  let owed ← account.rewardVestingShareBalance.sub shares
  let owedLiquid ← account.rewardVestingLiquidBalance.sub liquid
  return { account with
    vestingShareBalance := owned
    rewardVestingShareBalance := owed
    rewardVestingLiquidBalance := owedLiquid }

/-- Claimed shares enter the vesting fund with their liquid value. -/
def DynamicGlobalProperties.claimShares (gpo : DynamicGlobalProperties)
    (shares liquid : ShareType) : Except ChainError DynamicGlobalProperties := do
  let totalVestingShares ← gpo.totalVestingShares.add shares
  let totalVestingFundLiquid ← gpo.totalVestingFundLiquid.add liquid
  let pendingRewardedVestingShares ← gpo.pendingRewardedVestingShares.sub shares
  let pendingRewardedVestingLiquid ← gpo.pendingRewardedVestingLiquid.sub liquid
  return { gpo with
    totalVestingShares := totalVestingShares
    totalVestingFundLiquid := totalVestingFundLiquid
    pendingRewardedVestingShares := pendingRewardedVestingShares
    pendingRewardedVestingLiquid := pendingRewardedVestingLiquid }

def claimRewardBalanceEvaluator (op : ClaimRewardBalanceOperation) : Chain Unit := do
  let account ← getAccount op.account
  requireAtLeast ⟨account.rewardLiquidBalance, .liquid⟩ op.rewardLiquids
    "Cannot claim that much ZTR. Claim: $\x7bc\x7d Actual: $\x7ba\x7d"
  requireAtLeast ⟨account.rewardDollarBalance, .dollar⟩ op.rewardDollars
    "Cannot claim that much ZBD. Claim: $\x7bc\x7d Actual: $\x7ba\x7d"
  requireAtLeast ⟨account.rewardVestingShareBalance, .vests⟩ op.rewardVests
    "Cannot claim that much VESTS. Claim: $\x7bc\x7d Actual: $\x7ba\x7d"
  let shares := op.rewardVests.amount
  let liquidToMove ← account.rewardLiquidToMove shares
  let liquidsTaken ← op.rewardLiquids.neg
  adjustRewardBalance op.account liquidsTaken 0
  let dollarsTaken ← op.rewardDollars.neg
  adjustRewardBalance op.account dollarsTaken 0
  adjustBalance op.account op.rewardLiquids
  adjustBalance op.account op.rewardDollars
  modifyAccount op.account fun account => account.claimShares shares liquidToMove
  modifyDgp fun gpo => gpo.claimShares shares liquidToMove
  adjustProxiedWitnessVotes op.account shares

/-- A share of the median account creation fee, in vesting shares. -/
def ChainState.feeInShares (state : ChainState) (divisor : ShareType) :
    Except ChainError Asset := do
  let fee ← ShareType.div state.witnessSchedule.medianProps.accountCreationFee divisor
  let price ← state.dgp.vestingSharePrice
  (Asset.mk fee .liquid).mulPrice price

def modifyDelegated (name : AccountName) (delta : ShareType) : Chain Unit :=
  modifyAccount name fun account => do
    let delegated ← account.delegatedVestingShareBalance.add delta
    return { account with delegatedVestingShareBalance := delegated }

def modifyReceived (name : AccountName) (delta : ShareType) : Chain Unit :=
  modifyAccount name fun account => do
    let received ← account.receivedVestingShareBalance.add delta
    return { account with receivedVestingShareBalance := received }

def insertDelegationExpiration (delegator : AccountName) (shares : ShareType)
    (expiration : TimePointSec) : Chain Unit := do
  let state ← get
  create ChainState.delegationExpirations
    (fun state added =>
      { state with delegationExpirations := added, nextExpirationId := state.nextExpirationId + 1 })
    ⟨state.nextExpirationId, delegator, shares, expiration⟩

/-- How far a delegation may shrink. -/
def requireShrinking (delegation : VestingDelegation) (shares : Asset) (delta : ShareType)
    (minDelegation minUpdate : Asset) : Chain Unit :=
  if 0 < shares.amount then do
    requireAtLeast ⟨delta, .vests⟩ minUpdate
      "Zattera Power decrease is not enough of a difference. min_update: $\x7bmin\x7d"
    requireAtLeast shares minDelegation
      "Delegation must be removed or leave minimum delegation amount of $\x7bv\x7d"
  else
    require (0 < delegation.vestingShares) (.assertion
      "Delegation would set vesting_shares to zero, but it is already zero")

/-- A delegation that shrinks: the delegatee loses the difference at once, the delegator gets it
back when it expires. -/
def shrinkDelegation (delegation : VestingDelegation) (shares : Asset)
    (minDelegation minUpdate : Asset) : Chain Unit := do
  let delta ← delegation.vestingShares.sub shares.amount
  requireShrinking delegation shares delta minDelegation minUpdate
  let state ← get
  let returnTime := state.dgp.time + UInt32.ofNat state.dgp.delegationReturnPeriod
  insertDelegationExpiration delegation.delegator delta
    (if returnTime < delegation.minDelegationTime then delegation.minDelegationTime
      else returnTime)
  let taken ← delta.neg
  modifyReceived delegation.delegatee taken
  if 0 < shares.amount then
    modify fun state => { state with
      vestingDelegations :=
        state.vestingDelegations.replace { delegation with vestingShares := shares.amount } }
  else
    modify fun state => { state with
      vestingDelegations :=
        state.vestingDelegations.erase (delegation.delegator, delegation.delegatee) }

def delegateVestingSharesEvaluator (op : DelegateVestingSharesOperation) : Chain Unit := do
  let delegator ← getAccount op.delegator
  discard (getAccount op.delegatee)
  let available ← delegator.availableShares
  let state ← get
  let minDelegation ← state.feeInShares 3
  let minUpdate ← state.feeInShares 30
  match state.vestingDelegations.find? (op.delegator, op.delegatee) with
  | none => do
    requireAtLeast ⟨available, .vests⟩ op.vestingShares
      "Account does not have enough vesting shares to delegate."
    requireAtLeast op.vestingShares minDelegation
      "Account must delegate a minimum of $\x7bv\x7d"
    insertVestingDelegation
      ⟨op.delegator, op.delegatee, op.vestingShares.amount, state.dgp.time⟩
    modifyDelegated op.delegator op.vestingShares.amount
    modifyReceived op.delegatee op.vestingShares.amount
  | some delegation => do
    let shrinks ← op.vestingShares.lt ⟨delegation.vestingShares, .vests⟩
    if shrinks then shrinkDelegation delegation op.vestingShares minDelegation minUpdate
    else do
      let delta ← op.vestingShares.amount.sub delegation.vestingShares
      requireAtLeast ⟨delta, .vests⟩ minUpdate
        "Zattera Power increase is not enough of a difference. min_update: $\x7bmin\x7d"
      requireAtLeast ⟨available, .vests⟩ ⟨delta, .vests⟩
        "Account does not have enough vesting shares to delegate."
      modifyDelegated op.delegator delta
      modifyReceived op.delegatee delta
      modify fun state => { state with
        vestingDelegations := state.vestingDelegations.replace
          { delegation with vestingShares := op.vestingShares.amount } }

end Zattera
