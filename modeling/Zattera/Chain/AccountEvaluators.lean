/-
This file models the evaluators that create accounts, change who controls them,
and set up witnesses. `producing` says whether the node is producing the block:
some limits bind the producer only.
-/

import Zattera.Chain.Vesting

namespace Zattera

open Program

/-- The assertion `holding >= required` on assets. -/
def requireAtLeast (holding required : Asset) (message : String) : Chain Unit := do
  let short ← holding.lt required
  require (short = false) (.assertion message)

/-! ### Witnesses -/

def insertWitness (witness : Witness) : Chain Unit :=
  create ChainState.witnesses (fun state added => { state with witnesses := added }) witness

/-- `copy_legacy_chain_properties`, which leaves the account subsidy as it is. -/
def copyLegacyChainProperties (dest : ChainProperties) (src : LegacyChainProperties) :
    ChainProperties :=
  { dest with
    accountCreationFee := src.accountCreationFee
    maximumBlockSize := src.maximumBlockSize
    dollarInterestRate := src.dollarInterestRate }

def witnessUpdateEvaluator (producing : Bool) (o : WitnessUpdateOperation) : Chain Unit := do
  discard (getAccount o.owner)
  require (o.props.isCanon) (.assertion "o.props.account_creation_fee.symbol.is_canon()")
  whenever producing do
    require (o.props.maximumBlockSize ≤ 2097152)
      (.assertion "Max block size cannot be more than 2MiB")
  match (← get).witnesses.find? o.owner with
  | some _ =>
    updateWitness o.owner fun witness => { witness with
      signingKey := o.blockSigningKey
      props := copyLegacyChainProperties witness.props o.props }
  | none =>
    insertWitness { Witness.make o.owner with
      signingKey := o.blockSigningKey
      props := copyLegacyChainProperties default o.props }

/-- The properties an operation carries, laid over the old ones. -/
def WitnessSetPropertiesOperation.changedProps (o : WitnessSetPropertiesOperation)
    (old : ChainProperties) : ChainProperties where
  accountCreationFee := (o.accountCreationFee.map Asset.amount).getD old.accountCreationFee
  maximumBlockSize := o.maximumBlockSize.getD old.maximumBlockSize
  dollarInterestRate := o.dollarInterestRate.getD old.dollarInterestRate
  accountSubsidyLimit := o.accountSubsidyLimit.getD old.accountSubsidyLimit

def witnessSetPropertiesEvaluator (o : WitnessSetPropertiesOperation) : Chain Unit := do
  let witness ← getWitness o.owner
  require (o.key = some witness.signingKey)
    (.assertion "'key' does not match witness signing key.")
  let now ← headBlockTime
  updateWitness o.owner fun witness => { witness with
    props := o.changedProps witness.props
    signingKey := o.newSigningKey.getD witness.signingKey
    dollarExchangeRate := o.dollarExchangeRate.getD witness.dollarExchangeRate
    lastDollarExchangeUpdate :=
      if o.dollarExchangeRate.isSome then now else witness.lastDollarExchangeUpdate }

def feedPublishEvaluator (o : FeedPublishOperation) : Chain Unit := do
  require (o.exchangeRate.base.symbol = .dollar ∧ o.exchangeRate.quote.symbol = .liquid)
    (.assertion "Price feed must be a ZBD/ZTR price")
  let now ← headBlockTime
  updateWitness o.publisher fun witness => { witness with
    dollarExchangeRate := o.exchangeRate
    lastDollarExchangeUpdate := now }

/-! ### New accounts -/

/-- `verify_authority_accounts_exist` -/
def verifyAuthorityAccountsExist (auth : Authority) : Chain Unit := do
  let state ← get
  forM auth.accountAuths fun item =>
    require (state.accounts.find? item.1).isSome
      (.assertion ("New $\x7bac\x7d authority on account $\x7baa\x7d references " ++
        "non-existing account $\x7baref\x7d"))

/-- Look up every account an authority names. -/
def getAuthorityAccounts (auth : Authority) : Chain Unit :=
  forM auth.accountAuths fun item => discard (getAccount item.1)

/-- `initialize_account_object` -/
def initializeAccountObject (account : Account) (props : DynamicGlobalProperties)
    (recoveryAccount : AccountName) : Account :=
  { account with
    created := props.time
    lastVoteTime := props.time
    mined := false
    recoveryAccount :=
      if recoveryAccount ≠ AccountName.temp then recoveryAccount else account.recoveryAccount }

def insertAccount (account : Account) : Chain Unit :=
  create ChainState.accounts (fun state added => { state with accounts := added }) account

def insertAccountAuthority (auth : AccountAuthority) : Chain Unit :=
  create ChainState.accountAuthorities
    (fun state added => { state with accountAuthorities := added }) auth

/-- Create an account and its authorities; `received` are the shares delegated to it. -/
def createAccount (name creator : AccountName) (owner active posting : Authority)
    (received : ShareType) : Chain Unit := do
  let state ← get
  let account := initializeAccountObject (Account.make state.accounts.objects.length name)
    state.dgp creator
  insertAccount { account with receivedVestingShareBalance := received }
  insertAccountAuthority ⟨name, owner, active, posting, TimePointSec.min⟩

/-- The limit on the size of new authorities, which binds the producer only. -/
def validateNewAuthorities (producing : Bool) (owner active posting : Authority) : Chain Unit :=
  whenever producing do
    validateAuthSize owner
    validateAuthSize active
    validateAuthSize posting

def accountCreateEvaluator (producing : Bool) (o : AccountCreateOperation) : Chain Unit := do
  let creator ← getAccount o.creator
  requireAtLeast ⟨creator.liquidBalance, .liquid⟩ o.fee "Insufficient balance to create account."
  requireAtLeast o.fee ⟨(← get).witnessSchedule.medianProps.accountCreationFee, .liquid⟩
    "Insufficient Fee: $\x7bf\x7d required, $\x7bp\x7d provided."
  validateNewAuthorities producing o.owner o.active o.posting
  verifyAuthorityAccountsExist o.owner
  verifyAuthorityAccountsExist o.active
  verifyAuthorityAccountsExist o.posting
  modifyAccount o.creator fun creator => do
    let balance ← creator.liquidBalance.sub o.fee.amount
    return { creator with liquidBalance := balance }
  createAccount o.newAccountName o.creator o.owner o.active o.posting 0
  whenever (0 < o.fee.amount) do
    discard (createVesting o.newAccountName o.fee)

def insertVestingDelegation (delegation : VestingDelegation) : Chain Unit :=
  create ChainState.vestingDelegations
    (fun state added => { state with vestingDelegations := added }) delegation

/-- The shares an account may still delegate: those it neither delegates nor withdraws. -/
def Account.availableShares (account : Account) : Except ChainError ShareType := do
  let owned ← account.vestingShareBalance.sub account.delegatedVestingShareBalance
  let withdrawing ← account.toWithdraw.sub account.withdrawn
  owned.sub withdrawing

/-- The delegation an account creator owes: what the fee falls short of thirty times the median
fee, taken at five shares' worth for one. -/
def requireDelegation (o : AccountCreateWithDelegationOperation) : Chain Unit := do
  let state ← get
  let fee := state.witnessSchedule.medianProps.accountCreationFee
  let scaledFee ← ShareType.mul fee 30
  let targetLiquid ← scaledFee.mul 5
  let price ← state.dgp.vestingSharePrice
  let targetDelegation ← (Asset.mk targetLiquid .liquid).mulPrice price
  let paidLiquid ← o.fee.amount.mul 5
  let paid ← (Asset.mk paidLiquid .liquid).mulPrice price
  let current ← paid.add o.delegation
  requireAtLeast current targetDelegation
    "Inssufficient Delegation $\x7bf\x7d required, $\x7bp\x7d provided."

def accountCreateWithDelegationEvaluator (producing : Bool)
    (o : AccountCreateWithDelegationOperation) : Chain Unit := do
  let creator ← getAccount o.creator
  requireAtLeast ⟨creator.liquidBalance, .liquid⟩ o.fee "Insufficient balance to create account."
  let available ← creator.availableShares
  requireAtLeast ⟨available, .vests⟩ o.delegation
    "Insufficient vesting shares to delegate to new account."
  requireDelegation o
  requireAtLeast o.fee ⟨(← get).witnessSchedule.medianProps.accountCreationFee, .liquid⟩
    "Insufficient Fee: $\x7bf\x7d required, $\x7bp\x7d provided."
  validateNewAuthorities producing o.owner o.active o.posting
  getAuthorityAccounts o.owner
  getAuthorityAccounts o.active
  getAuthorityAccounts o.posting
  modifyAccount o.creator fun creator => do
    let balance ← creator.liquidBalance.sub o.fee.amount
    let delegated ← creator.delegatedVestingShareBalance.add o.delegation.amount
    return { creator with
      liquidBalance := balance
      delegatedVestingShareBalance := delegated }
  createAccount o.newAccountName o.creator o.owner o.active o.posting o.delegation.amount
  let now ← headBlockTime
  whenever (0 < o.delegation.amount) do
    insertVestingDelegation ⟨o.creator, o.newAccountName, o.delegation.amount, now + 2592000⟩
  whenever (0 < o.fee.amount) do
    discard (createVesting o.newAccountName o.fee)

/-- The fee for a claimed account goes to the null account, which the next block empties. -/
def claimAccountEvaluator (o : ClaimAccountOperation) : Chain Unit := do
  let creator ← getAccount o.creator
  requireAtLeast ⟨creator.liquidBalance, .liquid⟩ o.fee "Insufficient balance to create account."
  requireAtLeast o.fee ⟨(← get).witnessSchedule.medianProps.accountCreationFee, .liquid⟩
    "Insufficient Fee: $\x7bf\x7d required, $\x7bp\x7d provided."
  require (creator.pendingClaimedAccounts < 9223372036854775807)
    (.assertion "Cannot claim account, pending_claimed_accounts would overflow.")
  adjustBalance AccountName.null o.fee
  modifyAccount o.creator fun account => do
    let balance ← account.liquidBalance.sub o.fee.amount
    let pending ← account.pendingClaimedAccounts.add 1
    return { account with liquidBalance := balance, pendingClaimedAccounts := pending }

def createClaimedAccountEvaluator (o : CreateClaimedAccountOperation) : Chain Unit := do
  let creator ← getAccount o.creator
  require (0 < creator.pendingClaimedAccounts)
    (.assertion "$\x7bcreator\x7d has no claimed accounts to create")
  verifyAuthorityAccountsExist o.owner
  verifyAuthorityAccountsExist o.active
  verifyAuthorityAccountsExist o.posting
  modifyAccount o.creator fun creator => do
    let pending ← creator.pendingClaimedAccounts.sub 1
    return { creator with pendingClaimedAccounts := pending }
  createAccount o.newAccountName o.creator o.owner o.active o.posting 0

end Zattera
