/-
This file models vesting: the price of vesting shares, `create_vesting`, which
turns liquid tokens into vesting shares an account owns or is owed as a reward.
-/

import Zattera.Chain.Voting

namespace Zattera

open Program

namespace DynamicGlobalProperties

/-- `get_vesting_share_price` -/
def vestingSharePrice (props : DynamicGlobalProperties) : Except ChainError Price :=
  if props.totalVestingFundLiquid = 0 ∨ props.totalVestingShares = 0 then
    Price.make ⟨1000, .liquid⟩ ⟨1000000, .vests⟩
  else
    Price.make ⟨props.totalVestingShares, .vests⟩ ⟨props.totalVestingFundLiquid, .liquid⟩

/-- `get_reward_vesting_share_price` -/
def rewardVestingSharePrice (props : DynamicGlobalProperties) : Except ChainError Price := do
  let shares ← props.totalVestingShares.add props.pendingRewardedVestingShares
  let liquid ← props.totalVestingFundLiquid.add props.pendingRewardedVestingLiquid
  Price.make ⟨shares, .vests⟩ ⟨liquid, .liquid⟩

end DynamicGlobalProperties

/-- `create_vesting` into shares the account owns -/
def createVesting (toAccount : AccountName) (liquid : Asset) : Chain ShareType := do
  require (liquid.symbol = .liquid) (.assertion "liquid.symbol == LIQUID_SYMBOL")
  let price ← (← get).dgp.vestingSharePrice
  let newVesting ← liquid.mulPrice price
  adjustBalance toAccount newVesting
  modifyDgp fun props => do
    let totalVestingFundLiquid ← props.totalVestingFundLiquid.add liquid.amount
    let totalVestingShares ← props.totalVestingShares.add newVesting.amount
    return { props with
      totalVestingFundLiquid := totalVestingFundLiquid
      totalVestingShares := totalVestingShares }
  adjustProxiedWitnessVotes toAccount newVesting.amount
  return newVesting.amount

/-- `create_vesting` into shares the account is owed as a reward -/
def createRewardVesting (toAccount : AccountName) (liquid : Asset) : Chain ShareType := do
  require (liquid.symbol = .liquid) (.assertion "liquid.symbol == LIQUID_SYMBOL")
  let price ← (← get).dgp.rewardVestingSharePrice
  let newVesting ← liquid.mulPrice price
  require (newVesting.symbol = .vests)
    (.assertion "value_delta.symbol.is_vesting() == false && share_delta.symbol.is_vesting()")
  adjustRewardBalance toAccount liquid newVesting.amount
  modifyDgp fun props => do
    let pendingRewardedVestingShares ←
      props.pendingRewardedVestingShares.add newVesting.amount
    let pendingRewardedVestingLiquid ← props.pendingRewardedVestingLiquid.add liquid.amount
    return { props with
      pendingRewardedVestingShares := pendingRewardedVestingShares
      pendingRewardedVestingLiquid := pendingRewardedVestingLiquid }
  return newVesting.amount

end Zattera
