/-
This file models the steps of a block that complete what accounts have asked for
earlier: withdrawals of vesting shares with their routes, withdrawals from
savings, the return of delegated shares, changes of recovery accounts, the
expiry of escrows nobody ratified, and declined voting rights.
-/

import Zattera.Chain.Cashout

namespace Zattera

open Program

/-! ### Withdrawals of vesting shares -/

/-- The shares an account asks for this time: its rate, or at the end the remainder. -/
def Account.askedWithdrawal (account : Account) : Except ChainError ShareType := do
  let left ← account.toWithdraw.sub account.withdrawn
  if left < account.vestingWithdrawRate then account.toWithdraw.mod account.vestingWithdrawRate
  else return account.vestingWithdrawRate

/-- The shares an account withdraws this time, never more than it has. -/
def Account.dueWithdrawal (account : Account) : Except ChainError ShareType := do
  let due ← account.askedWithdrawal
  return if due < account.vestingShareBalance then due else account.vestingShareBalance

/-- The part of a withdrawal that goes along a route. -/
def WithdrawVestingRoute.deposit (route : WithdrawVestingRoute) (toWithdraw : ShareType) :
    Except ChainError ShareType :=
  UInt128.toShareType (UInt128.ofInt64 toWithdraw * BitVec.ofNat 128 route.percent / 10000)

/-- The routes of an account, in the order of their targets. -/
def ChainState.routesFrom (state : ChainState) (account : AccountName) :
    List WithdrawVestingRoute :=
  (state.withdrawRoutes.objects.filter (·.fromAccount = account)).insertionSort fun a b =>
    a.toAccount.data ≤ b.toAccount.data

/-- The first pass over the routes, which deposits vesting shares. It returns the shares deposited,
starting from those so far. -/
def depositVests (toWithdraw : ShareType) :
    List WithdrawVestingRoute → ShareType → Chain ShareType
  | [], deposited => return deposited
  | route :: rest, deposited =>
    if route.autoVest then do
      let toDeposit ← route.deposit toWithdraw
      let deposited ← deposited.add toDeposit
      whenever (0 < toDeposit) do
        modifyAccount route.toAccount fun account => do
          let balance ← account.vestingShareBalance.add toDeposit
          return { account with vestingShareBalance := balance }
        adjustProxiedWitnessVotes route.toAccount toDeposit
      depositVests toWithdraw rest deposited
    else depositVests toWithdraw rest deposited

/-- Convert vesting shares to liquid tokens at the current price. -/
def convertVests (shares : ShareType) : Chain Asset := do
  let price ← (← get).dgp.vestingSharePrice
  (Asset.mk shares .vests).mulPrice price

/-- Take shares and their liquid value out of the vesting fund. -/
def takeFromFund (liquid shares : ShareType) : Chain Unit :=
  modifyDgp fun props => do
    let totalVestingFundLiquid ← props.totalVestingFundLiquid.sub liquid
    let totalVestingShares ← props.totalVestingShares.sub shares
    return { props with
      totalVestingFundLiquid := totalVestingFundLiquid
      totalVestingShares := totalVestingShares }

def addLiquid (name : AccountName) (liquid : Asset) : Chain Unit :=
  modifyAccount name fun account => do
    let balance ← (Asset.mk account.liquidBalance .liquid).add liquid
    return { account with liquidBalance := balance.amount }

/-- The second pass over the routes, which converts shares and deposits liquid tokens -/
def depositLiquid (toWithdraw : ShareType) :
    List WithdrawVestingRoute → ShareType → Chain ShareType
  | [], deposited => return deposited
  | route :: rest, deposited =>
    if route.autoVest = false then do
      discard (getAccount route.toAccount)
      let toDeposit ← route.deposit toWithdraw
      let deposited ← deposited.add toDeposit
      let converted ← convertVests toDeposit
      whenever (0 < toDeposit) do
        addLiquid route.toAccount converted
        takeFromFund converted.amount toDeposit
      depositLiquid toWithdraw rest deposited
    else depositLiquid toWithdraw rest deposited

/-- The account after a withdrawal: it is over when everything asked for or everything owned has
been withdrawn, otherwise the next one is due in a week. -/
def Account.afterWithdrawal (account : Account) (toWithdraw : ShareType) (converted : Asset) :
    Except ChainError Account := do
  let shares ← account.vestingShareBalance.sub toWithdraw
  let balance ← (Asset.mk account.liquidBalance .liquid).add converted
  let withdrawn ← account.withdrawn.add toWithdraw
  let finished := account.toWithdraw ≤ withdrawn ∨ shares = 0
  return { account with
    vestingShareBalance := shares
    liquidBalance := balance.amount
    withdrawn := withdrawn
    vestingWithdrawRate := if finished then 0 else account.vestingWithdrawRate
    nextVestingWithdrawal :=
      if finished then TimePointSec.maximum else account.nextVestingWithdrawal + 604800 }

/-- The body of the loop of `process_vesting_withdrawals`, for one account -/
def withdrawFrom (account : Account) : Chain Unit := do
  let toWithdraw ← account.dueWithdrawal
  let routes := (← get).routesFrom account.name
  let asVests ← depositVests toWithdraw routes 0
  let asLiquid ← depositLiquid toWithdraw routes 0
  let kept ← toWithdraw.sub asLiquid
  let toConvert ← kept.sub asVests
  require (0 ≤ toConvert)
    (.assertion "Deposited more vests than were supposed to be withdrawn")
  let converted ← convertVests toConvert
  modifyAccount account.name fun account => account.afterWithdrawal toWithdraw converted
  takeFromFund converted.amount toConvert
  whenever (0 < toWithdraw) do
    let taken ← toWithdraw.neg
    adjustProxiedWitnessVotes account.name taken

/-- The order of the index `by_next_vesting_withdrawal`. -/
def Account.withdrawsBefore (a b : Account) : Bool :=
  decide (a.nextVestingWithdrawal < b.nextVestingWithdrawal ∨
    a.nextVestingWithdrawal = b.nextVestingWithdrawal ∧ a.name.data < b.name.data)

/-- The account that withdraws first among some. -/
def firstWithdrawal (accounts : List Account) : Option Account :=
  accounts.foldl (fun first account =>
    match first with
    | none => some account
    | some best => if account.withdrawsBefore best then some account else some best) none

/-- The account the iterator points to after it has passed another one. -/
def ChainState.withdrawalAfter (state : ChainState) (account : Account) : Option Account :=
  firstWithdrawal (state.accounts.objects.filter account.withdrawsBefore)

/-- The loop of `process_vesting_withdrawals`. The iterator moves on before an account is
processed; what is processed moves back in the index by a week or to its end, so an account can
come up again. -/
def withdrawEach : Nat → Option AccountName → Chain Unit
  | _, none => return ()
  | fuel, some name => do
    let account ← getAccount name
    let state ← get
    if account.nextVestingWithdrawal ≤ state.dgp.time then
      match fuel with
      | 0 => throw .diverges
      | fuel + 1 => do
        let next := (state.withdrawalAfter account).map Account.name
        withdrawFrom account
        withdrawEach fuel next
    else return ()

/-- How many times an account can come up before its next withdrawal lies in the future. -/
def Account.withdrawalVisits (account : Account) (now : TimePointSec) : Nat :=
  if account.nextVestingWithdrawal ≤ now then
    (now.toNat - account.nextVestingWithdrawal.toNat) / 604800 + 1
  else 0

/-- `process_vesting_withdrawals` -/
def processVestingWithdrawals : Chain Unit := do
  let state ← get
  let visits := (state.accounts.objects.map fun account =>
    account.withdrawalVisits state.dgp.time).sum
  withdrawEach visits ((firstWithdrawal state.accounts.objects).map Account.name)

/-! ### Savings and delegations -/

/-- The withdrawals from savings that are complete, in the order of their times. -/
def ChainState.completeSavingsWithdraws (state : ChainState) : List SavingsWithdraw :=
  (state.savingsWithdraws.objects.filter fun withdraw =>
    decide (withdraw.complete ≤ state.dgp.time)).insertionSort fun a b =>
      a.complete < b.complete ∨ a.complete = b.complete ∧
        (a.fromAccount.data < b.fromAccount.data ∨
          a.fromAccount = b.fromAccount ∧ a.requestId ≤ b.requestId)

/-- `process_savings_withdraws` -/
def processSavingsWithdraws : Chain Unit := do
  forM (← get).completeSavingsWithdraws fun withdraw => do
    adjustBalance withdraw.toAccount withdraw.amount
    updateAccount withdraw.fromAccount fun account =>
      { account with savingsWithdrawRequests := account.savingsWithdrawRequests - 1 }
    eraseSavingsWithdraw withdraw.fromAccount withdraw.requestId

/-- The delegations that expire, in the order of their times. -/
def ChainState.expiredDelegations (state : ChainState) : List VestingDelegationExpiration :=
  (state.delegationExpirations.objects.filter fun expiration =>
    decide (expiration.expiration < state.dgp.time)).insertionSort fun a b =>
      a.expiration < b.expiration ∨ a.expiration = b.expiration ∧ a.id ≤ b.id

/-- `clear_expired_delegations` -/
def clearExpiredDelegations : Chain Unit := do
  forM (← get).expiredDelegations fun expiration => do
    modifyAccount expiration.delegator fun account => do
      let delegated ← account.delegatedVestingShareBalance.sub expiration.vestingShares
      return { account with delegatedVestingShareBalance := delegated }
    modify fun state => { state with
      delegationExpirations := state.delegationExpirations.erase expiration.id }

/-! ### Recovery, escrows and declined votes -/

/-- The changes of recovery accounts that take effect, in the order of their times. -/
def ChainState.effectiveRecoveryChanges (state : ChainState) :
    List ChangeRecoveryAccountRequest :=
  (state.changeRecoveryRequests.objects.filter fun request =>
    decide (request.effectiveOn ≤ state.dgp.time)).insertionSort fun a b =>
      a.effectiveOn < b.effectiveOn ∨ a.effectiveOn = b.effectiveOn ∧
        a.accountToRecover.data ≤ b.accountToRecover.data

/-- `account_recovery_processing` -/
def accountRecoveryProcessing : Chain Unit := do
  modify fun state => { state with
    recoveryRequests := state.recoveryRequests.filter fun request =>
      decide (state.dgp.time < request.expires)
    ownerHistories := state.ownerHistories.dropWhile fun history =>
      decide (history.lastValidTime + 2592000 < state.dgp.time) }
  forM (← get).effectiveRecoveryChanges fun request => do
    updateAccount request.accountToRecover fun account =>
      { account with recoveryAccount := request.recoveryAccount }
    modify fun state => { state with
      changeRecoveryRequests := state.changeRecoveryRequests.erase request.accountToRecover }

/-- The escrows nobody ratified in time, in the order of their deadlines. -/
def ChainState.unratifiedEscrows (state : ChainState) : List Escrow :=
  (state.escrows.objects.filter fun escrow =>
    !escrow.isApproved && decide (escrow.ratificationDeadline ≤ state.dgp.time)).insertionSort
    fun a b => a.ratificationDeadline ≤ b.ratificationDeadline

/-- `expire_escrow_ratification` -/
def expireEscrowRatification : Chain Unit := do
  forM (← get).unratifiedEscrows refundEscrow

/-- The requests to decline voting rights that take effect, in the order of their times. -/
def ChainState.effectiveDeclines (state : ChainState) : List DeclineVotingRightsRequest :=
  (state.declineRequests.objects.filter fun request =>
    decide (request.effectiveDate ≤ state.dgp.time)).insertionSort fun a b =>
      a.effectiveDate < b.effectiveDate ∨ a.effectiveDate = b.effectiveDate ∧
        a.account.data ≤ b.account.data

/-- The body of the loop of `process_decline_voting_rights`, for one account -/
def declineVotingRights (name : AccountName) : Chain Unit := do
  let account ← getAccount name
  let delta ← account.voteDeltas.neg
  adjustProxiedDeltas name delta
  clearWitnessVotes name
  updateAccount name fun account =>
    { account with canVote := false, proxy := AccountName.proxyToSelf }
  modify fun state => { state with declineRequests := state.declineRequests.erase name }

/-- `process_decline_voting_rights` -/
def processDeclineVotingRights : Chain Unit := do
  forM (← get).effectiveDeclines fun request => declineVotingRights request.account

end Zattera
