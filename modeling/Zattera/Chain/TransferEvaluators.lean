/-
This file models the evaluators that move liquid tokens and dollars: transfers,
savings, conversions, and escrows, which park them until two parties and an
agent agree.
-/

import Zattera.Chain.AuthorityEvaluators

namespace Zattera

open Program

/-! ### Transfers and savings -/

/-- `get_balance` -/
def Account.balanceOf (account : Account) (symbol : AssetSymbol) : Except ChainError Asset :=
  match symbol with
  | .liquid => .ok ⟨account.liquidBalance, .liquid⟩
  | .dollar => .ok ⟨account.dollarBalance, .dollar⟩
  | .vests => .error (.assertion "invalid symbol")

/-- `get_savings_liquid_balance` -/
def Account.savingsBalanceOf (account : Account) (symbol : AssetSymbol) :
    Except ChainError Asset :=
  match symbol with
  | .liquid => .ok ⟨account.savingsLiquidBalance, .liquid⟩
  | .dollar => .ok ⟨account.savingsDollarBalance, .dollar⟩
  | .vests => .error (.assertion "invalid symbol")

/-- Check that an account holds an amount, then take it away. -/
def spend (name : AccountName) (amount : Asset) (message : String) : Chain Unit := do
  let account ← getAccount name
  let balance ← account.balanceOf amount.symbol
  requireAtLeast balance amount message
  let taken ← amount.neg
  adjustBalance name taken

def transferEvaluator (o : TransferOperation) : Chain Unit := do
  spend o.fromAccount o.amount "Account does not have sufficient funds for transfer."
  adjustBalance o.toAccount o.amount

def transferToVestingEvaluator (o : TransferToVestingOperation) : Chain Unit := do
  let toAccount := if o.toAccount.size ≠ 0 then o.toAccount else o.fromAccount
  discard (getAccount toAccount)
  spend o.fromAccount o.amount "Account does not have sufficient liquid amount for transfer."
  discard (createVesting toAccount o.amount)

def transferToSavingsEvaluator (op : TransferToSavingsOperation) : Chain Unit := do
  discard (getAccount op.toAccount)
  spend op.fromAccount op.amount
    "Account does not have sufficient funds to transfer to savings."
  adjustSavingsBalance op.toAccount op.amount

def insertSavingsWithdraw (withdraw : SavingsWithdraw) : Chain Unit :=
  create ChainState.savingsWithdraws
    (fun state added => { state with savingsWithdraws := added }) withdraw

def eraseSavingsWithdraw (account : AccountName) (requestId : Nat) : Chain Unit :=
  modify fun state =>
    { state with savingsWithdraws := state.savingsWithdraws.erase (account, requestId) }

def transferFromSavingsEvaluator (op : TransferFromSavingsOperation) : Chain Unit := do
  let account ← getAccount op.fromAccount
  discard (getAccount op.toAccount)
  require (account.savingsWithdrawRequests < 100)
    (.assertion "Account has reached limit for pending withdraw requests.")
  let savings ← account.savingsBalanceOf op.amount.symbol
  requireAtLeast savings op.amount
    "_db.get_savings_liquid_balance( from, op.amount.symbol ) >= op.amount"
  let taken ← op.amount.neg
  adjustSavingsBalance op.fromAccount taken
  let complete := (← headBlockTime) + 259200
  insertSavingsWithdraw ⟨op.fromAccount, op.toAccount, op.requestId, op.amount, complete⟩
  updateAccount op.fromAccount fun account =>
    { account with savingsWithdrawRequests := account.savingsWithdrawRequests + 1 }

def cancelTransferFromSavingsEvaluator (op : CancelTransferFromSavingsOperation) :
    Chain Unit := do
  let withdraw ← lookup ((← get).savingsWithdraws.find? (op.fromAccount, op.requestId))
  adjustSavingsBalance withdraw.fromAccount withdraw.amount
  eraseSavingsWithdraw op.fromAccount op.requestId
  updateAccount op.fromAccount fun account =>
    { account with savingsWithdrawRequests := account.savingsWithdrawRequests - 1 }

/-! ### Conversions -/

def insertConvertRequest (request : ConvertRequest) : Chain Unit :=
  create ChainState.convertRequests
    (fun state added => { state with convertRequests := added }) request

def convertEvaluator (o : ConvertOperation) : Chain Unit := do
  spend o.owner o.amount "Account does not have sufficient balance for conversion."
  require ((← get).feedHistory.currentMedianHistory.isNull = false)
    (.assertion "Cannot convert ZBD because there is no price feed.")
  let conversionDate := (← headBlockTime) + 302400
  insertConvertRequest ⟨o.owner, o.requestid, o.amount, conversionDate⟩

/-! ### Escrows -/

def getEscrow (account : AccountName) (escrowId : Nat) : Chain Escrow := do
  lookup ((← get).escrows.find? (account, escrowId))

def insertEscrow (escrow : Escrow) : Chain Unit :=
  create ChainState.escrows (fun state added => { state with escrows := added }) escrow

def putEscrow (escrow : Escrow) : Chain Unit :=
  modify fun state => { state with escrows := state.escrows.replace escrow }

def eraseEscrow (escrow : Escrow) : Chain Unit :=
  modify fun state =>
    { state with escrows := state.escrows.erase (escrow.fromAccount, escrow.escrowId) }

/-- The liquid tokens an escrow takes, with the fee where it is paid in them. -/
def EscrowTransferOperation.liquidSpent (o : EscrowTransferOperation) : Except ChainError Asset :=
  if o.fee.symbol = .liquid then o.liquidAmount.add o.fee else .ok o.liquidAmount

/-- The dollars an escrow takes, with the fee where it is paid in them. -/
def EscrowTransferOperation.dollarsSpent (o : EscrowTransferOperation) : Except ChainError Asset :=
  if o.fee.symbol = .liquid then .ok o.dollarAmount else o.dollarAmount.add o.fee

def escrowTransferEvaluator (o : EscrowTransferOperation) : Chain Unit := do
  let account ← getAccount o.fromAccount
  discard (getAccount o.toAccount)
  discard (getAccount o.agent)
  let now ← headBlockTime
  require (now < o.ratificationDeadline)
    (.assertion "The escorw ratification deadline must be after head block time.")
  require (now < o.escrowExpiration)
    (.assertion "The escrow expiration must be after head block time.")
  let liquidSpent ← o.liquidSpent
  let dollarsSpent ← o.dollarsSpent
  requireAtLeast ⟨account.liquidBalance, .liquid⟩ liquidSpent
    "Account cannot cover ZTR costs of escrow. Required: $\x7br\x7d Available: $\x7ba\x7d"
  requireAtLeast ⟨account.dollarBalance, .dollar⟩ dollarsSpent
    "Account cannot cover ZBD costs of escrow. Required: $\x7br\x7d Available: $\x7ba\x7d"
  let liquidTaken ← liquidSpent.neg
  adjustBalance o.fromAccount liquidTaken
  let dollarsTaken ← dollarsSpent.neg
  adjustBalance o.fromAccount dollarsTaken
  insertEscrow {
    escrowId := o.escrowId
    fromAccount := o.fromAccount
    toAccount := o.toAccount
    agent := o.agent
    ratificationDeadline := o.ratificationDeadline
    escrowExpiration := o.escrowExpiration
    dollarBalance := o.dollarAmount.amount
    liquidBalance := o.liquidAmount.amount
    pendingFee := o.fee
    toApproved := false
    agentApproved := false
    disputed := false }

/-- The checks that an operation names the parties of an escrow. -/
def Escrow.requireParties (escrow : Escrow) (toAccount agent : AccountName) : Chain Unit := do
  require (escrow.toAccount = toAccount) (.assertion
    "Operation 'to' ($\x7bo\x7d) does not match escrow 'to' ($\x7be\x7d).")
  require (escrow.agent = agent) (.assertion
    "Operation 'agent' ($\x7ba\x7d) does not match escrow 'agent' ($\x7be\x7d).")

/-- The escrow after the approval of `who`, who may not have approved before. -/
def Escrow.approvedBy (escrow : Escrow) (who toAccount agent : AccountName) (approve : Bool) :
    Except ChainError Escrow := do
  ensure (¬ (who = toAccount ∧ escrow.toApproved))
    (.assertion "Account 'to' ($\x7bt\x7d) has already approved the escrow.")
  ensure (¬ (who = agent ∧ escrow.agentApproved))
    (.assertion "Account 'agent' ($\x7ba\x7d) has already approved the escrow.")
  return { escrow with
    toApproved := escrow.toApproved || (approve && decide (who = toAccount))
    agentApproved := escrow.agentApproved || (approve && decide (who = agent)) }

/-- Return all that an escrow holds to the account that funded it. -/
def refundEscrow (escrow : Escrow) : Chain Unit := do
  adjustBalance escrow.fromAccount ⟨escrow.liquidBalance, .liquid⟩
  adjustBalance escrow.fromAccount ⟨escrow.dollarBalance, .dollar⟩
  adjustBalance escrow.fromAccount escrow.pendingFee
  eraseEscrow escrow

def escrowApproveEvaluator (o : EscrowApproveOperation) : Chain Unit := do
  let escrow ← getEscrow o.fromAccount o.escrowId
  escrow.requireParties o.toAccount o.agent
  require ((← headBlockTime) ≤ escrow.ratificationDeadline) (.assertion
    "The escrow ratification deadline has passed. Escrow can no longer be ratified.")
  let approved ← escrow.approvedBy o.who o.toAccount o.agent o.approve
  putEscrow approved
  if o.approve = false then refundEscrow approved
  else whenever approved.isApproved do
    adjustBalance o.agent approved.pendingFee
    putEscrow { approved with pendingFee := ⟨0, approved.pendingFee.symbol⟩ }

def escrowDisputeEvaluator (o : EscrowDisputeOperation) : Chain Unit := do
  discard (getAccount o.fromAccount)
  let escrow ← getEscrow o.fromAccount o.escrowId
  require ((← headBlockTime) < escrow.escrowExpiration)
    (.assertion "Disputing the escrow must happen before expiration.")
  require escrow.isApproved (.assertion
    "The escrow must be approved by all parties before a dispute can be raised.")
  require (escrow.disputed = false) (.assertion "The escrow is already under dispute.")
  escrow.requireParties o.toAccount o.agent
  putEscrow { escrow with disputed := true }

/-- Who may release funds of an approved escrow, and to whom. -/
def Escrow.requireRelease (escrow : Escrow) (o : EscrowReleaseOperation) (now : TimePointSec) :
    Chain Unit := do
  if escrow.disputed then
    require (o.who = escrow.agent) (.assertion
      "Only 'agent' ($\x7ba\x7d) can release funds in a disputed escrow.")
  else do
    require (o.who = escrow.fromAccount ∨ o.who = escrow.toAccount) (.assertion
      "Only 'from' ($\x7bf\x7d) and 'to' ($\x7bt\x7d) can release funds from a non-disputed escrow")
    whenever (now < escrow.escrowExpiration) do
      if o.who = escrow.fromAccount then
        require (o.receiver = escrow.toAccount) (.assertion
          "Only 'from' ($\x7bf\x7d) can release funds to 'to' ($\x7bt\x7d).")
      else whenever (o.who = escrow.toAccount) do
        require (o.receiver = escrow.fromAccount) (.assertion
          "Only 'to' ($\x7bt\x7d) can release funds to 'from' ($\x7bt\x7d).")

def escrowReleaseEvaluator (o : EscrowReleaseOperation) : Chain Unit := do
  discard (getAccount o.fromAccount)
  let escrow ← getEscrow o.fromAccount o.escrowId
  requireAtLeast ⟨escrow.liquidBalance, .liquid⟩ o.liquidAmount
    "Release amount exceeds escrow balance. Amount: $\x7ba\x7d, Balance: $\x7bb\x7d"
  requireAtLeast ⟨escrow.dollarBalance, .dollar⟩ o.dollarAmount
    "Release amount exceeds escrow balance. Amount: $\x7ba\x7d, Balance: $\x7bb\x7d"
  escrow.requireParties o.toAccount o.agent
  require (o.receiver = escrow.fromAccount ∨ o.receiver = escrow.toAccount) (.assertion
    "Funds must be released to 'from' ($\x7bf\x7d) or 'to' ($\x7bt\x7d)")
  require escrow.isApproved
    (.assertion "Funds cannot be released prior to escrow approval.")
  escrow.requireRelease o (← headBlockTime)
  adjustBalance o.receiver o.liquidAmount
  adjustBalance o.receiver o.dollarAmount
  let liquidBalance ← escrow.liquidBalance.sub o.liquidAmount.amount
  let dollarBalance ← escrow.dollarBalance.sub o.dollarAmount.amount
  let released := { escrow with liquidBalance := liquidBalance, dollarBalance := dollarBalance }
  putEscrow released
  whenever (liquidBalance = 0 ∧ dollarBalance = 0) do
    eraseEscrow released

end Zattera
