/-
This file models the evaluators that change who controls an account: updates of
its authorities, the recovery of a stolen account through its recovery account,
and the operations that only carry data for others to read.
-/

import Zattera.Chain.AccountEvaluators

namespace Zattera

open Program

/-! ### Updates -/

def getAccountAuthority (name : AccountName) : Chain AccountAuthority := do
  lookup ((← get).accountAuthorities.find? name)

def putAccountAuthority (auth : AccountAuthority) : Chain Unit :=
  modify fun state =>
    { state with accountAuthorities := state.accountAuthorities.replace auth }

/-- Record an owner authority that is about to be replaced. -/
def recordOwnerHistory (account : AccountName) : Chain Unit := do
  let auth ← getAccountAuthority account
  let state ← get
  create ChainState.ownerHistories
    (fun state added =>
      { state with ownerHistories := added, nextHistoryId := state.nextHistoryId + 1 })
    ⟨state.nextHistoryId, account, auth.owner, state.dgp.time⟩

/-- `update_owner_authority` -/
def updateOwnerAuthority (account : AccountName) (ownerAuthority : Authority) : Chain Unit := do
  let state ← get
  whenever (3186477 ≤ state.dgp.headBlockNumber) do
    recordOwnerHistory account
  let auth ← getAccountAuthority account
  putAccountAuthority { auth with owner := ownerAuthority, lastOwnerUpdate := state.dgp.time }

/-- Run a check of an authority that an operation may leave out. -/
def checkOptional (auth : Option Authority) (check : Authority → Chain Unit) : Chain Unit :=
  match auth with
  | some auth => check auth
  | none => return ()

def accountUpdateEvaluator (o : AccountUpdateOperation) : Chain Unit := do
  require (o.account ≠ AccountName.temp) (.assertion "Cannot update temp account.")
  checkOptional o.posting fun auth => auth.validate
  discard (getAccount o.account)
  let accountAuth ← getAccountAuthority o.account
  checkOptional o.owner fun auth => validateAuthSize auth
  checkOptional o.active fun auth => validateAuthSize auth
  checkOptional o.posting fun auth => validateAuthSize auth
  let now ← headBlockTime
  checkOptional o.owner fun auth => do
    require (3600 < secondsBetween now accountAuth.lastOwnerUpdate)
      (.assertion "Owner authority can only be updated once an hour.")
    verifyAuthorityAccountsExist auth
    updateOwnerAuthority o.account auth
  checkOptional o.active verifyAuthorityAccountsExist
  checkOptional o.posting verifyAuthorityAccountsExist
  updateAccount o.account fun account => { account with lastAccountUpdate := now }
  whenever (o.active.isSome ∨ o.posting.isSome) do
    let auth ← getAccountAuthority o.account
    putAccountAuthority { auth with
      active := o.active.getD auth.active
      posting := o.posting.getD auth.posting }

/-! ### Recovery -/

/-- Check that the account asking for a recovery may do so; an account without a recovery account
is recovered by the top witness. -/
def requireRecoveryAccount (account : Account) (recoveryAccount : AccountName) : Chain Unit := do
  if account.recoveryAccount.size ≠ 0 then
    require (account.recoveryAccount = recoveryAccount) (.assertion
      "Cannot recover an account that does not have you as there recovery partner.")
  else do
    let top ← lookup (← get).witnessesByVoteName.head?
    require (top.owner = recoveryAccount)
      (.assertion "Top witness must recover an account with no recovery partner.")

def insertRecoveryRequest (request : AccountRecoveryRequest) : Chain Unit :=
  create ChainState.recoveryRequests
    (fun state added => { state with recoveryRequests := added }) request

def eraseRecoveryRequest (account : AccountName) : Chain Unit :=
  modify fun state => { state with recoveryRequests := state.recoveryRequests.erase account }

def requestAccountRecoveryEvaluator (o : RequestAccountRecoveryOperation) : Chain Unit := do
  let account ← getAccount o.accountToRecover
  requireRecoveryAccount account o.recoveryAccount
  let expires := (← headBlockTime) + 86400
  match (← get).recoveryRequests.find? o.accountToRecover with
  | none => do
    require (o.newOwnerAuthority.isImpossible = false)
      (.assertion "Cannot recover using an impossible authority.")
    require (o.newOwnerAuthority.weightThreshold ≠ 0)
      (.assertion "Cannot recover using an open authority.")
    validateAuthSize o.newOwnerAuthority
    getAuthorityAccounts o.newOwnerAuthority
    insertRecoveryRequest ⟨o.accountToRecover, o.newOwnerAuthority, expires⟩
  | some request =>
    -- An open authority cancels the request.
    if o.newOwnerAuthority.weightThreshold = 0 then
      eraseRecoveryRequest o.accountToRecover
    else do
      require (o.newOwnerAuthority.isImpossible = false)
        (.assertion "Cannot recover using an impossible authority.")
      getAuthorityAccounts o.newOwnerAuthority
      modify fun state => { state with
        recoveryRequests := state.recoveryRequests.replace
          { request with newOwnerAuthority := o.newOwnerAuthority, expires := expires } }

def recoverAccountEvaluator (o : RecoverAccountOperation) : Chain Unit := do
  let account ← getAccount o.accountToRecover
  let now ← headBlockTime
  require (3600 < secondsBetween now account.lastAccountRecovery)
    (.assertion "Owner authority can only be updated once an hour.")
  let state ← get
  match state.recoveryRequests.find? o.accountToRecover with
  | none => throw (.assertion "There are no active recovery requests for this account.")
  | some request => do
    require (request.newOwnerAuthority = o.newOwnerAuthority)
      (.assertion "New owner authority does not match recovery request.")
    require (∃ history ∈ state.ownerHistories.objects,
        history.account = o.accountToRecover ∧
          history.previousOwnerAuthority = o.recentOwnerAuthority)
      (.assertion "Recent authority not found in authority history.")
    eraseRecoveryRequest o.accountToRecover
    updateOwnerAuthority o.accountToRecover o.newOwnerAuthority
    updateAccount o.accountToRecover fun account => { account with lastAccountRecovery := now }

def insertChangeRecoveryRequest (request : ChangeRecoveryAccountRequest) : Chain Unit :=
  create ChainState.changeRecoveryRequests
    (fun state added => { state with changeRecoveryRequests := added }) request

def changeRecoveryAccountEvaluator (o : ChangeRecoveryAccountOperation) : Chain Unit := do
  discard (getAccount o.newRecoveryAccount)
  let account ← getAccount o.accountToRecover
  let effectiveOn := (← headBlockTime) + 2592000
  match (← get).changeRecoveryRequests.find? o.accountToRecover with
  | none =>
    insertChangeRecoveryRequest ⟨o.accountToRecover, o.newRecoveryAccount, effectiveOn⟩
  | some _ =>
    if account.recoveryAccount ≠ o.newRecoveryAccount then
      modify fun state => { state with
        changeRecoveryRequests := state.changeRecoveryRequests.replace
          ⟨o.accountToRecover, o.newRecoveryAccount, effectiveOn⟩ }
    else
      modify fun state => { state with
        changeRecoveryRequests := state.changeRecoveryRequests.erase o.accountToRecover }

def resetAccountEvaluator (_o : ResetAccountOperation) : Chain Unit :=
  throw (.assertion "Reset Account Operation is currently disabled.")

def setResetAccountEvaluator (_o : SetResetAccountOperation) : Chain Unit :=
  throw (.assertion "Set Reset Account Operation is currently disabled.")

/-! ### Data for others -/

/-- The limit on the number of authorities an operation with free data may require. -/
def requireFewAuths (count : Nat) : Chain Unit :=
  require (count ≤ 40) (.assertion "Too many auths specified. Max: 10, Current: $\x7bn\x7d")

def customEvaluator (producing : Bool) (o : CustomOperation) : Chain Unit := do
  whenever producing do
    require (o.dataSize ≤ 8192) (.assertion "custom_operation must be less than 8k")
  requireFewAuths o.requiredAuths.length

/-- No interpreter of custom data is part of the chain itself. -/
def customJsonEvaluator (producing : Bool) (o : CustomJsonOperation) : Chain Unit := do
  whenever producing do
    require (o.json.text.length ≤ 8192)
      (.assertion "custom_json_operation json must be less than 8k")
  requireFewAuths (o.requiredAuths.length + o.requiredPostingAuths.length)

def customBinaryEvaluator (producing : Bool) (o : CustomBinaryOperation) : Chain Unit := do
  whenever producing do
    require (o.dataSize ≤ 8192) (.assertion "custom_binary_operation data must be less than 8k")
    throw (.assertion "custom_binary_operation is deprecated")
  requireFewAuths (o.requiredOwnerAuths.length + o.requiredActiveAuths.length +
    o.requiredPostingAuths.length +
    (o.requiredAuths.map fun auth => auth.keyAuths.length + auth.accountAuths.length).sum)

def reportOverProductionEvaluator (_o : ReportOverProductionOperation) : Chain Unit := return ()

end Zattera
