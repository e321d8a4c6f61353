/-
This file models how balances change: lookups and updates of single objects, the
adjustment of an account's liquid, dollar, savings and reward balances (with the
interest paid on dollars whenever they move), and the adjustment of the supply.
-/

import Zattera.Chain.Objects

namespace Zattera

open Program

/-! ### Access to objects -/

/-- An object that has to exist. -/
def lookup {Object : Type} (found : Option Object) : Chain Object :=
  match found with
  | some object => return object
  | none => throw .unknownKey

/-- A table after an insertion that has to succeed. -/
def inserted {Key Object : Type} {key : Object → Key} (added : Option (Table Key Object key)) :
    Chain (Table Key Object key) :=
  match added with
  | some table => return table
  | none => throw .uniqueness

/-- `create`: add an object to its table, under a key that must not be taken. -/
def create {Key Object : Type} {key : Object → Key} [DecidableEq Key]
    (table : ChainState → Table Key Object key)
    (store : ChainState → Table Key Object key → ChainState) (object : Object) : Chain Unit := do
  let added ← inserted ((table (← get)).insert? object)
  modify fun state => store state added

/-- `get_account` -/
def getAccount (name : AccountName) : Chain Account := do
  lookup ((← get).accounts.find? name)

/-- Store an account in the place of the one with its name. -/
def putAccount (account : Account) : Chain Unit :=
  modify fun state => { state with accounts := state.accounts.replace account }

/-- `modify` of an account -/
def modifyAccount (name : AccountName) (change : Account → Except ChainError Account) :
    Chain Unit := do
  let account ← getAccount name
  let changed ← change account
  putAccount changed

/-- `modify` of an account by a change that cannot fail -/
def updateAccount (name : AccountName) (change : Account → Account) : Chain Unit :=
  modifyAccount name fun account => .ok (change account)

/-- `get_witness` -/
def getWitness (name : AccountName) : Chain Witness := do
  lookup ((← get).witnesses.find? name)

/-- Store a witness in the place of the one with its owner. -/
def putWitness (witness : Witness) : Chain Unit :=
  modify fun state => { state with witnesses := state.witnesses.replace witness }

/-- `modify` of a witness -/
def modifyWitness (name : AccountName) (change : Witness → Except ChainError Witness) :
    Chain Unit := do
  let witness ← getWitness name
  let changed ← change witness
  putWitness changed

/-- `modify` of a witness by a change that cannot fail -/
def updateWitness (name : AccountName) (change : Witness → Witness) : Chain Unit :=
  modifyWitness name fun witness => .ok (change witness)

/-- `modify` of the dynamic global properties -/
def modifyDgp (change : DynamicGlobalProperties → Except ChainError DynamicGlobalProperties) :
    Chain Unit := do
  let state ← get
  let dgp ← change state.dgp
  set { state with dgp := dgp }

/-- `head_block_time` -/
def headBlockTime : Chain TimePointSec := do
  return (← get).dgp.time

/-- The seconds from one time to another; `operator -` of times is signed. -/
def secondsBetween (later earlier : TimePointSec) : Int := (later.toNat : Int) - earlier.toNat

/-! ### Dollars and their interest -/

/-- The four fields by which an account tracks dollars it holds, liquid or in savings. -/
structure DollarHolding where
  balance : ShareType
  seconds : UInt128
  secondsLastUpdate : TimePointSec
  lastInterestPayment : TimePointSec

/-- Issue interest: the dollar supply grows by it, the virtual supply by its value. -/
def issueInterest (interestPaid : ShareType) : Chain Unit := do
  let median := (← get).feedHistory.currentMedianHistory
  modifyDgp fun props => do
    let currentDollarSupply ← props.currentDollarSupply.add interestPaid
    let value ← (Asset.mk interestPaid .dollar).mulPrice median
    ensure (value.symbol = .liquid) (.assertion "symbol == o.symbol")
    let virtualLiquidSupply ← props.virtualLiquidSupply.add value.amount
    return { props with
      currentDollarSupply := currentDollarSupply
      virtualLiquidSupply := virtualLiquidSupply }

/-- Bring a holding up to date before its balance changes: count the dollar-seconds since the last
update, and once they are old enough turn them into interest. -/
def accrueInterest (holding : DollarHolding) : Chain DollarHolding := do
  let dgp := (← get).dgp
  if holding.secondsLastUpdate = dgp.time then return holding
  else do
    let seconds := holding.seconds + UInt128.ofInt64 holding.balance *
      BitVec.ofInt 128 (secondsBetween dgp.time holding.secondsLastUpdate)
    if seconds ≠ 0 ∧ 2592000 < secondsBetween dgp.time holding.lastInterestPayment then do
      let interest := seconds / 31536000 * BitVec.ofNat 128 dgp.dollarInterestRate / 10000
      let interestPaid ← UInt128.toShareType interest
      let balance ← holding.balance.add interestPaid
      issueInterest interestPaid
      return ⟨balance, 0, dgp.time, dgp.time⟩
    else return { holding with seconds := seconds, secondsLastUpdate := dgp.time }

/-- Change a holding by `delta`, which may not leave it negative. -/
def adjustHolding (holding : DollarHolding) (delta : ShareType) (message : String) :
    Chain DollarHolding := do
  let current ← accrueInterest holding
  let balance ← current.balance.add delta
  require (0 ≤ balance) (.assertion message)
  return { current with balance := balance }

/-! ### Balances of an account -/

/-- Add `delta` to a balance, which may not become negative. -/
def addBalance (balance delta : ShareType) (message : String) : Except ChainError ShareType := do
  let balance ← balance.add delta
  ensure (0 ≤ balance) (.assertion message)
  return balance

def Account.dollarHolding (account : Account) : DollarHolding :=
  ⟨account.dollarBalance, account.dollarSeconds, account.dollarSecondsLastUpdate,
    account.dollarLastInterestPayment⟩

def Account.withDollarHolding (account : Account) (holding : DollarHolding) : Account :=
  { account with
    dollarBalance := holding.balance
    dollarSeconds := holding.seconds
    dollarSecondsLastUpdate := holding.secondsLastUpdate
    dollarLastInterestPayment := holding.lastInterestPayment }

def Account.savingsHolding (account : Account) : DollarHolding :=
  ⟨account.savingsDollarBalance, account.savingsDollarSeconds,
    account.savingsDollarSecondsLastUpdate, account.savingsDollarLastInterestPayment⟩

def Account.withSavingsHolding (account : Account) (holding : DollarHolding) : Account :=
  { account with
    savingsDollarBalance := holding.balance
    savingsDollarSeconds := holding.seconds
    savingsDollarSecondsLastUpdate := holding.secondsLastUpdate
    savingsDollarLastInterestPayment := holding.lastInterestPayment }

/-- `modify_balance` for an account in hand; every caller has the balance checked. -/
def modifyBalance (account : Account) (delta : Asset) : Chain Unit :=
  match delta.symbol with
  | .liquid => do
    let balance ← addBalance account.liquidBalance delta.amount "Insufficient ZTR funds"
    putAccount { account with liquidBalance := balance }
  | .dollar => do
    let holding ← adjustHolding account.dollarHolding delta.amount "Insufficient ZBD funds"
    putAccount (account.withDollarHolding holding)
  | .vests => do
    let balance ← addBalance account.vestingShareBalance delta.amount "Insufficient VESTS funds"
    putAccount { account with vestingShareBalance := balance }

/-- `adjust_balance` -/
def adjustBalance (name : AccountName) (delta : Asset) : Chain Unit := do
  let account ← getAccount name
  modifyBalance account delta

/-- `adjust_savings_liquid_balance`, which for dollars adjusts the savings in dollars. -/
def adjustSavingsBalance (name : AccountName) (delta : Asset) : Chain Unit := do
  let account ← getAccount name
  match delta.symbol with
  | .liquid => do
    let balance ← addBalance account.savingsLiquidBalance delta.amount
      "Insufficient savings ZTR funds"
    putAccount { account with savingsLiquidBalance := balance }
  | .dollar => do
    let holding ← adjustHolding account.savingsHolding delta.amount
      "Insufficient savings ZBD funds"
    putAccount (account.withSavingsHolding holding)
  | .vests => throw (.assertion "invalid symbol")

/-- `modify_reward_balance`. A liquid value that comes with no shares is taken as liquid tokens,
one that comes with shares as the value of those shares. -/
def modifyRewardBalance (account : Account) (valueDelta : Asset) (shareDelta : ShareType) :
    Chain Unit :=
  match valueDelta.symbol with
  | .liquid =>
    if shareDelta = 0 then do
      let balance ← addBalance account.rewardLiquidBalance valueDelta.amount
        "Insufficient reward ZTR funds"
      putAccount { account with rewardLiquidBalance := balance }
    else do
      let liquid ← account.rewardVestingLiquidBalance.add valueDelta.amount
      let shares ← addBalance account.rewardVestingShareBalance shareDelta
        "Insufficient reward VESTS funds"
      putAccount { account with
        rewardVestingLiquidBalance := liquid
        rewardVestingShareBalance := shares }
  | .dollar => do
    require (shareDelta = 0) (.assertion "share_delta.amount.value == 0")
    let balance ← addBalance account.rewardDollarBalance valueDelta.amount
      "Insufficient reward ZBD funds"
    putAccount { account with rewardDollarBalance := balance }
  | .vests => throw (.assertion "invalid symbol")

/-- `adjust_reward_balance`; the shares are always given in vesting shares. -/
def adjustRewardBalance (name : AccountName) (valueDelta : Asset) (shareDelta : ShareType) :
    Chain Unit := do
  require (valueDelta.symbol ≠ .vests)
    (.assertion "value_delta.symbol.is_vesting() == false && share_delta.symbol.is_vesting()")
  let account ← getAccount name
  modifyRewardBalance account valueDelta shareDelta

/-! ### The supply -/

/-- What `adjust_supply` adds to the vesting fund on top of new liquid tokens. -/
def newVestingFor (delta : ShareType) (adjustVesting : Bool) : Except ChainError ShareType :=
  if adjustVesting ∧ 0 < delta then delta.mul 9 else .ok 0

/-- `adjust_supply`; no caller asks for the vesting fund to be adjusted. -/
def adjustSupply (delta : Asset) (adjustVesting : Bool) : Chain Unit := do
  let state ← get
  let adjustVesting := adjustVesting && decide (201600 ≤ state.dgp.headBlockNumber)
  modifyDgp fun props =>
    match delta.symbol with
    | .liquid => do
      let newVesting ← newVestingFor delta.amount adjustVesting
      let change ← delta.amount.add newVesting
      let currentLiquidSupply ← props.currentLiquidSupply.add change
      let virtualLiquidSupply ← props.virtualLiquidSupply.add change
      let totalVestingFundLiquid ← props.totalVestingFundLiquid.add newVesting
      ensure (0 ≤ currentLiquidSupply)
        (.assertion "props.current_liquid_supply.amount.value >= 0")
      return { props with
        currentLiquidSupply := currentLiquidSupply
        virtualLiquidSupply := virtualLiquidSupply
        totalVestingFundLiquid := totalVestingFundLiquid }
    | .dollar => do
      let currentDollarSupply ← props.currentDollarSupply.add delta.amount
      let value ← (Asset.mk currentDollarSupply .dollar).mulPrice
        state.feedHistory.currentMedianHistory
      ensure (value.symbol = .liquid) (.assertion "a.symbol == b.symbol")
      let virtualLiquidSupply ← value.amount.add props.currentLiquidSupply
      ensure (0 ≤ currentDollarSupply)
        (.assertion "props.current_dollar_supply.amount.value >= 0")
      return { props with
        currentDollarSupply := currentDollarSupply
        virtualLiquidSupply := virtualLiquidSupply }
    | .vests => .error (.assertion "invalid symbol")

/-- Add to a balance of an account, or to what it is owed as a reward. -/
def credit (toAccount : AccountName) (asset : Asset) (toRewardBalance : Bool) : Chain Unit :=
  if toRewardBalance then adjustRewardBalance toAccount asset 0 else adjustBalance toAccount asset

/-- `create_dollar`: turn part of a liquid reward into dollars. Returns the dollars and the liquid
tokens credited. -/
def createDollar (toAccount : AccountName) (liquid : ShareType) (toRewardBalance : Bool) :
    Chain (Asset × ShareType) := do
  if liquid = 0 then return (⟨0, .dollar⟩, 0)
  else do
    let state ← get
    let median := state.feedHistory.currentMedianHistory
    if !median.isNull then do
      let printed ← ShareType.mul (Int64.ofNat state.dgp.dollarPrintRate) liquid
      let toDollar ← printed.div 10000
      let toLiquid ← liquid.sub toDollar
      let dollars ← (Asset.mk toDollar .liquid).mulPrice median
      credit toAccount dollars toRewardBalance
      credit toAccount ⟨toLiquid, .liquid⟩ toRewardBalance
      let burned ← toDollar.neg
      adjustSupply ⟨burned, .liquid⟩ false
      adjustSupply dollars false
      return (dollars, toLiquid)
    else do
      adjustBalance toAccount ⟨liquid, .liquid⟩
      return (⟨0, .dollar⟩, liquid)

end Zattera
