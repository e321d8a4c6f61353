/-
This file models the steps of a block that create and destroy tokens: the price
feed and the supply figures that depend on it, the burning of what the null
account holds, the inflation paid to reward funds, vesting fund and producer,
and the conversion of dollars at the median price.
-/

import Zattera.Chain.Transactions

namespace Zattera

open Program

/-! ### The price feed -/

/-- Prices in ascending order. -/
def sortPrices (prices : List Price) : List Price :=
  prices.insertionSort fun a b => b.lt a = false

/-- The middle of a list of prices, in ascending order. -/
def medianPrice (prices : List Price) : Price := (sortPrices prices).getD (prices.length / 2) default

/-- The prices the scheduled witnesses have published in the last seven days. -/
def freshFeeds : List AccountName → Chain (List Price)
  | [] => return []
  | name :: rest => do
    let witness ← getWitness name
    let now ← headBlockTime
    let others ← freshFeeds rest
    return if now < witness.lastDollarExchangeUpdate + 604800 ∧
        witness.dollarExchangeRate.isNull = false
      then witness.dollarExchangeRate :: others else others

/-- The scheduled witnesses, in their shuffled order. -/
def WitnessSchedule.scheduledWitnesses (schedule : WitnessSchedule) : List AccountName :=
  (List.range schedule.numScheduledWitnesses).map schedule.shuffledWitness

/-- The price history with a new price, of at most 84 hours. -/
def FeedHistory.extend (history : FeedHistory) (price : Price) : List Price :=
  let prices := history.priceHistory ++ [price]
  if 84 < prices.length then prices.tail else prices

/-- The least price at which all dollars are worth no more than a ninth of the liquid supply. -/
def DynamicGlobalProperties.minPrice (gpo : DynamicGlobalProperties) : Except ChainError Price := do
  let base ← ShareType.mul 9 gpo.currentDollarSupply
  Price.make ⟨base, .dollar⟩ ⟨gpo.currentLiquidSupply, .liquid⟩

/-- The change `update_median_feed` makes with the median of the feeds. -/
def recordFeed (medianFeed : Price) : Chain Unit := do
  let state ← get
  let prices := state.feedHistory.extend medianFeed
  let median := medianPrice prices
  let minPrice ← state.dgp.minPrice
  set { state with
    feedHistory := ⟨if minPrice.le median then median else minPrice, prices⟩ }

/-- `update_median_feed` -/
def updateMedianFeed : Chain Unit := do
  let state ← get
  whenever (state.dgp.headBlockNumber % 1200 = 0) do
    let feeds ← freshFeeds state.witnessSchedule.scheduledWitnesses
    whenever (7 ≤ feeds.length) (recordFeed (medianPrice feeds))

/-- The rate at which rewards are paid in dollars, which falls from all to nothing as dollars grow
from two to five percent of the supply. -/
def dollarPrintRateFor (percentDollar : Nat) : Nat :=
  if percentDollar ≤ 200 then 10000
  else if 500 ≤ percentDollar then 0
  else (500 - percentDollar) * 10000 / 300

/-- `update_virtual_supply` -/
def updateVirtualSupply : Chain Unit := do
  let median := (← get).feedHistory.currentMedianHistory
  modifyDgp fun dgp =>
    if median.isNull then .ok { dgp with virtualLiquidSupply := dgp.currentLiquidSupply }
    else do
      let value ← (Asset.mk dgp.currentDollarSupply .dollar).mulPrice median
      ensure (value.symbol = .liquid) (.assertion "a.symbol == b.symbol")
      let virtualLiquidSupply ← dgp.currentLiquidSupply.add value.amount
      let percent ← UInt128.div (UInt128.ofInt64 value.amount * 10000)
        (UInt128.ofInt64 virtualLiquidSupply)
      ensure (percent.toNat < 18446744073709551616) (.assertion "hi == 0")
      return { dgp with
        virtualLiquidSupply := virtualLiquidSupply
        dollarPrintRate := dollarPrintRateFor (percent.toNat % 65536) }

/-! ### Burning -/

/-- Take a positive balance of the null account away; returns what was taken. -/
def burn (held : Account → Asset) (adjust : Asset → Chain Unit) : Chain ShareType := do
  let account ← getAccount AccountName.null
  if 0 < (held account).amount then do
    let taken ← (held account).neg
    adjust taken
    return (held account).amount
  else return 0

/-- Turn the vesting shares of the null account into liquid tokens; returns those. -/
def burnVestingShares : Chain ShareType := do
  let account ← getAccount AccountName.null
  if 0 < account.vestingShareBalance then do
    let price ← (← get).dgp.vestingSharePrice
    let converted ← (Asset.mk account.vestingShareBalance .vests).mulPrice price
    modifyDgp fun gpo => do
      let totalVestingShares ← gpo.totalVestingShares.sub account.vestingShareBalance
      let totalVestingFundLiquid ← gpo.totalVestingFundLiquid.sub converted.amount
      return { gpo with
        totalVestingShares := totalVestingShares
        totalVestingFundLiquid := totalVestingFundLiquid }
    updateAccount AccountName.null fun account => { account with vestingShareBalance := 0 }
    return converted.amount
  else return 0

/-- Take the vesting shares the null account is owed out of the pending ones; returns their
liquid value. -/
def burnRewardShares : Chain ShareType := do
  let account ← getAccount AccountName.null
  if 0 < account.rewardVestingShareBalance then do
    modifyDgp fun gpo => do
      let shares ← gpo.pendingRewardedVestingShares.sub account.rewardVestingShareBalance
      let liquid ← gpo.pendingRewardedVestingLiquid.sub account.rewardVestingLiquidBalance
      return { gpo with
        pendingRewardedVestingShares := shares
        pendingRewardedVestingLiquid := liquid }
    updateAccount AccountName.null fun account =>
      { account with rewardVestingLiquidBalance := 0, rewardVestingShareBalance := 0 }
    return account.rewardVestingLiquidBalance
  else return 0

/-- A sum with overflow checked at each step. -/
def sumShares (shares : List ShareType) : Except ChainError ShareType :=
  shares.foldlM ShareType.add 0

/-- Take burned tokens out of the supply. -/
def shrinkSupply (burned : ShareType) (symbol : AssetSymbol) : Chain Unit :=
  whenever (0 < burned) do
    let taken ← burned.neg
    adjustSupply ⟨taken, symbol⟩ false

/-- `clear_null_account_balance` -/
def clearNullAccountBalance : Chain Unit := do
  let null := AccountName.null
  let liquid ← burn (fun account => ⟨account.liquidBalance, .liquid⟩) (adjustBalance null)
  let savings ← burn (fun account => ⟨account.savingsLiquidBalance, .liquid⟩)
    (adjustSavingsBalance null)
  let dollars ← burn (fun account => ⟨account.dollarBalance, .dollar⟩) (adjustBalance null)
  let savingsDollars ← burn (fun account => ⟨account.savingsDollarBalance, .dollar⟩)
    (adjustSavingsBalance null)
  let vested ← burnVestingShares
  let rewardLiquid ← burn (fun account => ⟨account.rewardLiquidBalance, .liquid⟩)
    fun taken => adjustRewardBalance null taken 0
  let rewardDollars ← burn (fun account => ⟨account.rewardDollarBalance, .dollar⟩)
    fun taken => adjustRewardBalance null taken 0
  let rewardVested ← burnRewardShares
  let totalLiquid ← sumShares [liquid, savings, vested, rewardLiquid, rewardVested]
  let totalDollars ← sumShares [dollars, savingsDollars, rewardDollars]
  shrinkSupply totalLiquid .liquid
  shrinkSupply totalDollars .dollar

/-! ### Inflation -/

/-- Whether the supply is still below the threshold of the bootstrap phase. -/
def DynamicGlobalProperties.isBootstrapPhase (props : DynamicGlobalProperties) : Bool :=
  decide (props.currentLiquidSupply < 100000000000)

/-- The yearly inflation in hundredths of a percent, which narrows every 250000 blocks. -/
def DynamicGlobalProperties.currentInflationRate (props : DynamicGlobalProperties) : Nat :=
  max (978 - props.headBlockNumber / 250000) 95

/-- The tokens a block creates. -/
def DynamicGlobalProperties.newLiquid (props : DynamicGlobalProperties) :
    Except ChainError ShareType :=
  if props.isBootstrapPhase then .ok 10000
  else do
    let scaled ← props.virtualLiquidSupply.mul (Int64.ofNat props.currentInflationRate)
    scaled.div 105120000000

/-- A part of an amount, in hundredths of a percent. -/
def percentOf (amount : ShareType) (percent : Nat) : Except ChainError ShareType := do
  let scaled ← amount.mul (Int64.ofNat percent)
  scaled.div 10000

def putRewardFund (fund : RewardFund) : Chain Unit :=
  modify fun state => { state with rewardFunds := state.rewardFunds.replace fund }

/-- The loop of `pay_reward_funds`, with the rewards used so far -/
def payEachFund (reward : ShareType) : List RewardFund → ShareType → Chain ShareType
  | [], usedRewards => return usedRewards
  | fund :: rest, usedRewards => do
    let share ← percentOf reward fund.percentContentRewards
    let rewardBalance ← fund.rewardBalance.add share
    putRewardFund { fund with rewardBalance := rewardBalance }
    let usedRewards ← usedRewards.add share
    require (usedRewards ≤ reward) (.assertion "used_rewards <= reward")
    payEachFund reward rest usedRewards

/-- `pay_reward_funds` -/
def payRewardFunds (reward : ShareType) : Chain ShareType := do
  payEachFund reward (← get).rewardFunds.objects 0

/-- The weight of a producer's pay by the way it was scheduled. -/
def WitnessSchedule.payWeight (schedule : WitnessSchedule) : WitnessScheduleType → Nat
  | .timeshare => schedule.timeshareWeight
  | .top20 => schedule.top20Weight
  | .none => 1

/-- The producer's pay: all that is left in the bootstrap phase, weighted later. -/
def producerReward (props : DynamicGlobalProperties) (reward : ShareType) (witness : Witness)
    (schedule : WitnessSchedule) : Except ChainError ShareType :=
  if props.isBootstrapPhase then .ok reward
  else do
    let scaled ← reward.mul 21
    let weighted ← scaled.mul (Int64.ofNat (schedule.payWeight witness.schedule))
    weighted.div (Int64.ofNat schedule.witnessPayNormalizationFactor)

/-- What the vesting fund gets of new tokens: nothing before there are enough vesting shares. -/
def vestingReward (newLiquid totalVestingShares : ShareType) : Except ChainError ShareType := do
  let reward ← percentOf newLiquid 1500
  return if totalVestingShares < 1000000000000 then 0 else reward

/-- `process_funds` -/
def processFunds : Chain Unit := do
  let props := (← get).dgp
  let newLiquid ← props.newLiquid
  let contentShare ← percentOf newLiquid 7500
  let contentReward ← payRewardFunds contentShare
  let vestingReward ← vestingReward newLiquid props.totalVestingShares
  let rest ← newLiquid.sub contentReward
  let witnessShare ← rest.sub vestingReward
  let witness ← getWitness props.currentWitness
  let witnessReward ← producerReward props witnessShare witness (← get).witnessSchedule
  let paid ← contentReward.add vestingReward
  let created ← paid.add witnessReward
  modifyDgp fun p => do
    let totalVestingFundLiquid ← p.totalVestingFundLiquid.add vestingReward
    let currentLiquidSupply ← p.currentLiquidSupply.add created
    let virtualLiquidSupply ← p.virtualLiquidSupply.add created
    return { p with
      totalVestingFundLiquid := totalVestingFundLiquid
      currentLiquidSupply := currentLiquidSupply
      virtualLiquidSupply := virtualLiquidSupply }
  discard (createVesting witness.owner ⟨witnessReward, .liquid⟩)

/-! ### Conversions -/

def eraseConvertRequest (request : ConvertRequest) : Chain Unit :=
  modify fun state =>
    { state with convertRequests := state.convertRequests.erase (request.owner, request.requestid) }

/-- The loop of `process_conversions`, with the dollars taken in and the tokens issued so far -/
def convertEach (median : Price) : List ConvertRequest → Asset × Asset → Chain (Asset × Asset)
  | [], nets => return nets
  | request :: rest, (netDollars, netLiquid) => do
    let amountToIssue ← request.amount.mulPrice median
    adjustBalance request.owner amountToIssue
    let netDollars ← netDollars.add request.amount
    let netLiquid ← netLiquid.add amountToIssue
    eraseConvertRequest request
    convertEach median rest (netDollars, netLiquid)

/-- The conversion requests that are due, in the order of their dates. -/
def ChainState.dueConversions (state : ChainState) : List ConvertRequest :=
  (state.convertRequests.objects.filter fun request =>
    decide (request.conversionDate ≤ state.dgp.time)).insertionSort
    fun a b => a.conversionDate ≤ b.conversionDate

/-- `process_conversions` -/
def processConversions : Chain Unit := do
  let state ← get
  let median := state.feedHistory.currentMedianHistory
  whenever (median.isNull = false) do
    let (netDollars, netLiquid) ← convertEach median state.dueConversions
      (⟨0, .dollar⟩, ⟨0, .liquid⟩)
    modifyDgp fun p => do
      let currentLiquidSupply ← p.currentLiquidSupply.add netLiquid.amount
      let currentDollarSupply ← p.currentDollarSupply.sub netDollars.amount
      let grown ← p.virtualLiquidSupply.add netLiquid.amount
      let value ← netDollars.mulPrice median
      ensure (value.symbol = .liquid) (.assertion "a.symbol == b.symbol")
      let virtualLiquidSupply ← grown.sub value.amount
      return { p with
        currentLiquidSupply := currentLiquidSupply
        currentDollarSupply := currentDollarSupply
        virtualLiquidSupply := virtualLiquidSupply }

end Zattera
