/-
This file keeps the books of the chain. For each kind of token it compares what
has been issued with what accounts, orders, escrows, requests and reward funds
hold; the difference is the gap. Liquid tokens an account is owed in vesting
shares count as held. Every function that moves balances is given the change it
makes to the gap, so that whether tokens are conserved by a longer program is a
matter of adding up.
-/

import Zattera.Proof.Footprint

namespace Zattera

open Program Faceted

set_option synthInstance.maxSize 4096

variable {asset delta : Asset} {name toAccount : AccountName} {account : Account}
  {order : LimitOrder} {escrow : Escrow} {price : Price}

/-! ### The books -/

/-- The kinds of tokens the books are kept of. The last two are rewards not yet claimed: vesting
shares, and the liquid tokens behind them. -/
inductive Pool where
  | liquid
  | dollar
  | shares
  | owedShares
  | owedLiquid
  deriving DecidableEq

def AssetSymbol.pool : AssetSymbol → Pool
  | .liquid => .liquid
  | .dollar => .dollar
  | .vests => .shares

/-- An asset as an entry in the books. -/
def Asset.value (asset : Asset) : Pool → Int := Pi.single asset.symbol.pool asset.amount.toInt

def Account.held (account : Account) : Pool → Int
  | .liquid => account.liquidBalance.toInt + account.savingsLiquidBalance.toInt +
      account.rewardLiquidBalance.toInt + account.rewardVestingLiquidBalance.toInt
  | .dollar => account.dollarBalance.toInt + account.savingsDollarBalance.toInt +
      account.rewardDollarBalance.toInt
  | .shares => account.vestingShareBalance.toInt
  | .owedShares => account.rewardVestingShareBalance.toInt
  | .owedLiquid => account.rewardVestingLiquidBalance.toInt

def Escrow.held (escrow : Escrow) : Pool → Int :=
  (Asset.mk escrow.liquidBalance .liquid).value + (Asset.mk escrow.dollarBalance .dollar).value +
    escrow.pendingFee.value

def RewardFund.held (fund : RewardFund) : Pool → Int :=
  (Asset.mk fund.rewardBalance .liquid).value

/-- All that accounts and other objects hold. -/
def ChainState.held (state : ChainState) : Pool → Int :=
  state.accounts.total Account.held +
    (state.limitOrders.total fun order => order.amountForSale.value) +
    state.escrows.total Escrow.held +
    (state.savingsWithdraws.total fun withdraw => withdraw.amount.value) +
    (state.convertRequests.total fun request => request.amount.value) +
    state.rewardFunds.total RewardFund.held

/-- All that has been issued, without the liquid tokens in the two global funds. -/
def DynamicGlobalProperties.issued (dgp : DynamicGlobalProperties) : Pool → Int
  | .liquid => dgp.currentLiquidSupply.toInt - dgp.totalVestingFundLiquid.toInt -
      dgp.totalRewardFundLiquid.toInt
  | .dollar => dgp.currentDollarSupply.toInt
  | .shares => dgp.totalVestingShares.toInt
  | .owedShares => dgp.pendingRewardedVestingShares.toInt
  | .owedLiquid => dgp.pendingRewardedVestingLiquid.toInt

/-- What has been issued but is held nowhere. -/
def ChainState.gap (state : ChainState) : Pool → Int := state.dgp.issued - state.held

/-! ### Entries -/

theorem gap_replaceAccount {s : ChainState} {old : Account}
    (found : s.accounts.find? account.name = some old) :
    ({ s with accounts := s.accounts.replace account } : ChainState).gap =
      s.gap + old.held - account.held := by
  simp only [ChainState.gap, ChainState.held, Table.total_replace Account.held found]
  abel

theorem gap_setDgp (s : ChainState) (dgp : DynamicGlobalProperties) :
    ({ s with dgp := dgp } : ChainState).gap = s.gap + (dgp.issued - s.dgp.issued) := by
  simp only [ChainState.gap, ChainState.held]
  abel

theorem sameGap {α : Type} {x : Chain α} {s t : ChainState} {a : α}
    [Respects (Same ChainState.gap) x] (run : x s = .ok a t) : t.gap = s.gap :=
  Respects.related (R := Same ChainState.gap) s a t run

theorem Asset.value_neg {negated : Asset} (made : asset.neg = .ok negated) :
    negated.value = -asset.value := by
  simp only [Asset.neg, except_bind_eq_ok, except_pure_eq_ok, ShareType.neg_eq_ok] at made
  obtain ⟨amount, exact_, rfl⟩ := made
  simp only [Asset.value, exact_, Pi.single_neg]

theorem Asset.value_add {first second sum : Asset} (made : first.add second = .ok sum) :
    sum.value = first.value + second.value := by
  simp only [Asset.add, Asset.sameSymbol, except_bind_eq_ok, ensure_eq_ok, except_pure_eq_ok,
    ShareType.add_eq_ok] at made
  obtain ⟨_, same, amount, exact_, rfl⟩ := made
  simp only [Asset.value, exact_, ← same, Pi.single_add]

theorem Asset.symbol_add {first second sum : Asset} (made : first.add second = .ok sum) :
    sum.symbol = first.symbol := by
  simp only [Asset.add, except_bind_eq_ok, except_pure_eq_ok] at made
  obtain ⟨_, _, _, _, rfl⟩ := made
  rfl

/-- An asset of a known token. -/
theorem Asset.value_of_symbol {symbol : AssetSymbol} (known : asset.symbol = symbol) :
    (Asset.mk asset.amount symbol).value = asset.value := by
  rw [← known]

theorem Asset.value_mk_zero (symbol : AssetSymbol) : (Asset.mk 0 symbol).value = 0 := by
  simp [Asset.value]

/-! ### The fields of an account -/

section Fields

variable (account : Account) (balance : ShareType)

theorem held_liquidBalance :
    ({ account with liquidBalance := balance } : Account).held =
      account.held + Pi.single Pool.liquid (balance.toInt - account.liquidBalance.toInt) := by
  funext pool
  cases pool <;> simp [Account.held]
  omega

theorem held_savingsLiquidBalance :
    ({ account with savingsLiquidBalance := balance } : Account).held =
      account.held + Pi.single Pool.liquid (balance.toInt - account.savingsLiquidBalance.toInt) := by
  funext pool
  cases pool <;> simp [Account.held]
  omega

theorem held_rewardLiquidBalance :
    ({ account with rewardLiquidBalance := balance } : Account).held =
      account.held + Pi.single Pool.liquid (balance.toInt - account.rewardLiquidBalance.toInt) := by
  funext pool
  cases pool <;> simp [Account.held]
  omega

theorem held_dollarBalance :
    ({ account with dollarBalance := balance } : Account).held =
      account.held + Pi.single Pool.dollar (balance.toInt - account.dollarBalance.toInt) := by
  funext pool
  cases pool <;> simp [Account.held]
  omega

theorem held_savingsDollarBalance :
    ({ account with savingsDollarBalance := balance } : Account).held =
      account.held + Pi.single Pool.dollar (balance.toInt - account.savingsDollarBalance.toInt) := by
  funext pool
  cases pool <;> simp [Account.held]
  omega

theorem held_rewardDollarBalance :
    ({ account with rewardDollarBalance := balance } : Account).held =
      account.held + Pi.single Pool.dollar (balance.toInt - account.rewardDollarBalance.toInt) := by
  funext pool
  cases pool <;> simp [Account.held]

theorem held_vestingShareBalance :
    ({ account with vestingShareBalance := balance } : Account).held =
      account.held + Pi.single Pool.shares (balance.toInt - account.vestingShareBalance.toInt) := by
  funext pool
  cases pool <;> simp [Account.held]

theorem held_withDollarHolding (holding : DollarHolding) :
    (account.withDollarHolding holding).held =
      account.held + Pi.single Pool.dollar
        (holding.balance.toInt - account.dollarHolding.balance.toInt) :=
  held_dollarBalance account holding.balance

theorem held_withSavingsHolding (holding : DollarHolding) :
    (account.withSavingsHolding holding).held =
      account.held + Pi.single Pool.dollar
        (holding.balance.toInt - account.savingsHolding.balance.toInt) :=
  held_savingsDollarBalance account holding.balance

theorem held_rewardVesting (liquid shares : ShareType) :
    ({ account with
        rewardVestingLiquidBalance := liquid
        rewardVestingShareBalance := shares } : Account).held =
      account.held +
        Pi.single Pool.liquid (liquid.toInt - account.rewardVestingLiquidBalance.toInt) +
        Pi.single Pool.owedLiquid (liquid.toInt - account.rewardVestingLiquidBalance.toInt) +
        Pi.single Pool.owedShares (shares.toInt - account.rewardVestingShareBalance.toInt) := by
  funext pool
  cases pool <;> simp [Account.held]

end Fields

/-! ### Balances -/

section Balances

variable {s t : ChainState}

theorem gap_issueInterest {interestPaid : ShareType}
    (run : issueInterest interestPaid s = .ok () t) :
    t.accounts = s.accounts ∧ t.gap = s.gap + (Asset.mk interestPaid .dollar).value := by
  simp only [issueInterest, bind_eq_ok, get_eq_ok, modifyDgp_eq_ok, except_bind_eq_ok,
    except_pure_eq_ok, ShareType.add_eq_ok, ensure_eq_ok] at run
  obtain ⟨_, _, ⟨rfl, rfl⟩, _, ⟨supply, exact_, _, _, _, _, _, _, rfl⟩, rfl⟩ := run
  refine ⟨rfl, ?_⟩
  rw [gap_setDgp]
  congr 1
  funext pool
  cases pool <;> simp [DynamicGlobalProperties.issued, Asset.value, AssetSymbol.pool, exact_]

/-- Interest is issued to the supply exactly as it is added to the balance. -/
theorem gap_accrueInterest {holding current : DollarHolding}
    (run : accrueInterest holding s = .ok current t) :
    t.accounts = s.accounts ∧
      t.gap = s.gap + Pi.single Pool.dollar (current.balance.toInt - holding.balance.toInt) := by
  simp only [accrueInterest, bind_eq_ok, get_eq_ok] at run
  obtain ⟨_, _, ⟨rfl, rfl⟩, run⟩ := run
  split at run
  · obtain ⟨rfl, rfl⟩ := pure_eq_ok.mp run
    simp
  · split at run
    · simp only [bind_eq_ok, lift_eq_ok, ShareType.add_eq_ok, pure_eq_ok] at run
      obtain ⟨interest, _, ⟨_, rfl⟩, balance, _, ⟨exact_, rfl⟩, _, _, issued, rfl, rfl⟩ := run
      obtain ⟨sameAccounts, changed⟩ := gap_issueInterest issued
      refine ⟨sameAccounts, ?_⟩
      rw [changed, exact_]
      simp [Asset.value, AssetSymbol.pool]
    · obtain ⟨rfl, rfl⟩ := pure_eq_ok.mp run
      simp

theorem gap_adjustHolding {holding current : DollarHolding} {delta : ShareType} {message : String}
    (run : adjustHolding holding delta message s = .ok current t) :
    t.accounts = s.accounts ∧
      t.gap = s.gap + Pi.single Pool.dollar
        (current.balance.toInt - holding.balance.toInt - delta.toInt) := by
  simp only [adjustHolding, bind_eq_ok, lift_eq_ok, ShareType.add_eq_ok, require_eq_ok,
    pure_eq_ok] at run
  obtain ⟨accrued, _, accrual, balance, _, ⟨exact_, rfl⟩, _, _, ⟨_, rfl⟩, rfl, rfl⟩ := run
  obtain ⟨sameAccounts, changed⟩ := gap_accrueInterest accrual
  refine ⟨sameAccounts, ?_⟩
  rw [changed, exact_]
  congr 2
  omega

/-- Putting an account back that holds more leaves the books short of the difference. -/
theorem gap_putAccount {old : Account} {change : Pool → Int} (run : putAccount account s = .ok () t)
    (found : s.accounts.find? account.name = some old) (changed : account.held = old.held + change) :
    t.gap = s.gap - change := by
  obtain rfl := modify_eq_ok.mp run
  rw [gap_replaceAccount found, changed]
  abel

theorem gap_modifyAccount {change : Account → Except ChainError Account} {entry : Pool → Int}
    {u : Unit} (run : modifyAccount name change s = .ok u t)
    (entered : ∀ account changed, s.accounts.find? name = some account →
      change account = .ok changed →
        changed.name = account.name ∧ changed.held = account.held + entry) :
    t.gap = s.gap - entry := by
  obtain ⟨account, changed, found, made, rfl⟩ := modifyAccount_eq_ok.mp run
  obtain ⟨sameName, held⟩ := entered account changed found made
  obtain ⟨_, rfl⟩ := Table.find?_eq_some_iff.mp found
  rw [← sameName] at found
  exact gap_putAccount (modify_eq_ok.mpr rfl) found held

/-- What is added to a balance is what the books are short of afterwards. -/
theorem gap_adjustBalance (run : adjustBalance name delta s = .ok () t) :
    t.gap = s.gap - delta.value := by
  obtain ⟨account, _, read, modified⟩ := bind_eq_ok.mp run
  obtain ⟨found, rfl⟩ := getAccount_eq_ok.mp read
  obtain ⟨_, rfl⟩ := Table.find?_eq_some_iff.mp found
  obtain ⟨amount, symbol⟩ := delta
  cases symbol with
  | liquid =>
    simp only [modifyBalance, bind_eq_ok, lift_eq_ok, addBalance_eq_ok] at modified
    obtain ⟨balance, _, ⟨⟨exact_, _⟩, rfl⟩, put⟩ := modified
    rw [gap_putAccount put found (held_liquidBalance account balance), exact_, add_sub_cancel_left]
    rfl
  | dollar =>
    simp only [modifyBalance, bind_eq_ok] at modified
    obtain ⟨holding, _, adjusted, put⟩ := modified
    obtain ⟨sameAccounts, changed⟩ := gap_adjustHolding adjusted
    rw [← sameAccounts] at found
    rw [gap_putAccount put found (held_withDollarHolding account holding), changed, Pi.single_sub]
    change _ = _ - (Pi.single Pool.dollar amount.toInt : Pool → Int)
    abel
  | vests =>
    simp only [modifyBalance, bind_eq_ok, lift_eq_ok, addBalance_eq_ok] at modified
    obtain ⟨balance, _, ⟨⟨exact_, _⟩, rfl⟩, put⟩ := modified
    rw [gap_putAccount put found (held_vestingShareBalance account balance), exact_,
      add_sub_cancel_left]
    rfl

theorem gap_adjustSavingsBalance (run : adjustSavingsBalance name delta s = .ok () t) :
    t.gap = s.gap - delta.value := by
  obtain ⟨account, _, read, modified⟩ := bind_eq_ok.mp run
  obtain ⟨found, rfl⟩ := getAccount_eq_ok.mp read
  obtain ⟨_, rfl⟩ := Table.find?_eq_some_iff.mp found
  obtain ⟨amount, symbol⟩ := delta
  cases symbol with
  | liquid =>
    simp only [bind_eq_ok, lift_eq_ok, addBalance_eq_ok] at modified
    obtain ⟨balance, _, ⟨⟨exact_, _⟩, rfl⟩, put⟩ := modified
    rw [gap_putAccount put found (held_savingsLiquidBalance account balance), exact_,
      add_sub_cancel_left]
    rfl
  | dollar =>
    simp only [bind_eq_ok] at modified
    obtain ⟨holding, _, adjusted, put⟩ := modified
    obtain ⟨sameAccounts, changed⟩ := gap_adjustHolding adjusted
    rw [← sameAccounts] at found
    rw [gap_putAccount put found (held_withSavingsHolding account holding), changed, Pi.single_sub]
    change _ = _ - (Pi.single Pool.dollar amount.toInt : Pool → Int)
    abel
  | vests => simp at modified

/-- A reward as an entry in the books: with shares, it is the liquid value of those shares. -/
def rewardValue (valueDelta : Asset) (shareDelta : ShareType) : Pool → Int :=
  if valueDelta.symbol = .liquid ∧ shareDelta ≠ 0 then
    valueDelta.value + Pi.single Pool.owedLiquid valueDelta.amount.toInt +
      Pi.single Pool.owedShares shareDelta.toInt
  else valueDelta.value

theorem rewardValue_zero (valueDelta : Asset) : rewardValue valueDelta 0 = valueDelta.value := by
  simp [rewardValue]

theorem gap_adjustRewardBalance {valueDelta : Asset} {shareDelta : ShareType}
    (run : adjustRewardBalance name valueDelta shareDelta s = .ok () t) :
    t.gap = s.gap - rewardValue valueDelta shareDelta := by
  obtain ⟨_, _, required, allowed⟩ := bind_eq_ok.mp run
  obtain ⟨_, rfl⟩ := require_eq_ok.mp required
  obtain ⟨account, _, read, modified⟩ := bind_eq_ok.mp allowed
  obtain ⟨found, rfl⟩ := getAccount_eq_ok.mp read
  obtain ⟨_, rfl⟩ := Table.find?_eq_some_iff.mp found
  obtain ⟨amount, symbol⟩ := valueDelta
  cases symbol with
  | liquid =>
    simp only [modifyRewardBalance] at modified
    split at modified
    · next zero =>
      simp only [bind_eq_ok, lift_eq_ok, addBalance_eq_ok] at modified
      obtain ⟨balance, _, ⟨⟨exact_, _⟩, rfl⟩, put⟩ := modified
      rw [gap_putAccount put found (held_rewardLiquidBalance account balance), exact_,
        add_sub_cancel_left, zero, rewardValue_zero]
      rfl
    · next nonzero =>
      simp only [bind_eq_ok, lift_eq_ok, addBalance_eq_ok, ShareType.add_eq_ok] at modified
      obtain ⟨liquid, _, ⟨exact_, rfl⟩, shares, _, ⟨⟨exactShares, _⟩, rfl⟩, put⟩ := modified
      rw [@gap_putAccount _ _ _ _ (rewardValue ⟨amount, .liquid⟩ shareDelta) put found]
      rw [held_rewardVesting account liquid shares, exact_, exactShares, add_sub_cancel_left,
        add_sub_cancel_left, rewardValue, if_pos ⟨rfl, nonzero⟩, Asset.value, AssetSymbol.pool]
      abel
  | dollar =>
    simp only [modifyRewardBalance, bind_eq_ok, require_eq_ok, lift_eq_ok,
      addBalance_eq_ok] at modified
    obtain ⟨_, _, ⟨zero, rfl⟩, balance, _, ⟨⟨exact_, _⟩, rfl⟩, put⟩ := modified
    rw [gap_putAccount put found (held_rewardDollarBalance account balance), exact_,
      add_sub_cancel_left, zero, rewardValue_zero]
    rfl
  | vests => simp [modifyRewardBalance] at modified

theorem gap_adjustSupply (run : adjustSupply delta false s = .ok () t) :
    t.gap = s.gap + delta.value := by
  have modified := get_bind_eq_ok.mp run
  obtain ⟨dgp, made, rfl⟩ := modifyDgp_eq_ok.mp modified
  rw [gap_setDgp]
  congr 1
  obtain ⟨amount, symbol⟩ := delta
  cases symbol with
  | liquid =>
    simp only [newVestingFor, Bool.false_and, Bool.false_eq_true, false_and, if_false,
      except_bind_eq_ok, except_pure_eq_ok, ShareType.add_eq_ok, ensure_eq_ok] at made
    obtain ⟨_, zero, change, exactChange, supply, exactSupply, _, _, fund, exactFund, _, _, rfl⟩ :=
      made
    cases zero
    funext pool
    cases pool <;> simp [DynamicGlobalProperties.issued, Asset.value, AssetSymbol.pool,
      exactChange, exactSupply, exactFund]
  | dollar =>
    simp only [except_bind_eq_ok, except_pure_eq_ok, ShareType.add_eq_ok, ensure_eq_ok] at made
    obtain ⟨supply, exactSupply, _, _, _, _, _, _, _, _, rfl⟩ := made
    funext pool
    cases pool <;> simp [DynamicGlobalProperties.issued, Asset.value, AssetSymbol.pool, exactSupply]
  | vests => simp at made

end Balances

/-! ### Entries beside the accounts -/

section Parked

variable {s t : ChainState}

theorem gap_insertAccount (run : insertAccount account s = .ok () t) :
    t.gap = s.gap - account.held := by
  obtain ⟨_, added, rfl⟩ := create_eq_ok.mp run
  simp only [ChainState.gap, ChainState.held, Table.total_insert? Account.held added]
  abel

theorem gap_insertLimitOrder (run : insertLimitOrder order s = .ok () t) :
    t.gap = s.gap - order.amountForSale.value := by
  obtain ⟨_, added, rfl⟩ := create_eq_ok.mp run
  simp only [ChainState.gap, ChainState.held,
    Table.total_insert? (fun order => order.amountForSale.value) added]
  abel

theorem gap_putLimitOrder {old : LimitOrder} (run : putLimitOrder order s = .ok () t)
    (found : s.limitOrders.find? (order.seller, order.orderid) = some old) :
    t.gap = s.gap + old.amountForSale.value - order.amountForSale.value := by
  obtain rfl := modify_eq_ok.mp run
  simp only [ChainState.gap, ChainState.held,
    Table.total_replace (fun order => order.amountForSale.value) found]
  abel

theorem gap_eraseLimitOrder {old : LimitOrder} (run : eraseLimitOrder order s = .ok () t)
    (found : s.limitOrders.find? (order.seller, order.orderid) = some old) :
    t.gap = s.gap + old.amountForSale.value := by
  obtain rfl := modify_eq_ok.mp run
  simp only [ChainState.gap, ChainState.held,
    Table.total_erase (fun order => order.amountForSale.value) found]
  abel

theorem gap_insertEscrow (run : insertEscrow escrow s = .ok () t) :
    t.gap = s.gap - escrow.held := by
  obtain ⟨_, added, rfl⟩ := create_eq_ok.mp run
  simp only [ChainState.gap, ChainState.held, Table.total_insert? Escrow.held added]
  abel

theorem gap_putEscrow {old : Escrow} (run : putEscrow escrow s = .ok () t)
    (found : s.escrows.find? (escrow.fromAccount, escrow.escrowId) = some old) :
    t.gap = s.gap + old.held - escrow.held := by
  obtain rfl := modify_eq_ok.mp run
  simp only [ChainState.gap, ChainState.held, Table.total_replace Escrow.held found]
  abel

theorem gap_eraseEscrow {old : Escrow} (run : eraseEscrow escrow s = .ok () t)
    (found : s.escrows.find? (escrow.fromAccount, escrow.escrowId) = some old) :
    t.gap = s.gap + old.held := by
  obtain rfl := modify_eq_ok.mp run
  simp only [ChainState.gap, ChainState.held, Table.total_erase Escrow.held found]
  abel

theorem gap_insertSavingsWithdraw {withdraw : SavingsWithdraw}
    (run : insertSavingsWithdraw withdraw s = .ok () t) :
    t.gap = s.gap - withdraw.amount.value := by
  obtain ⟨_, added, rfl⟩ := create_eq_ok.mp run
  simp only [ChainState.gap, ChainState.held,
    Table.total_insert? (fun withdraw => withdraw.amount.value) added]
  abel

theorem gap_eraseSavingsWithdraw {account : AccountName} {requestId : Nat} {old : SavingsWithdraw}
    (run : eraseSavingsWithdraw account requestId s = .ok () t)
    (found : s.savingsWithdraws.find? (account, requestId) = some old) :
    t.gap = s.gap + old.amount.value := by
  obtain rfl := modify_eq_ok.mp run
  simp only [ChainState.gap, ChainState.held,
    Table.total_erase (fun withdraw => withdraw.amount.value) found]
  abel

theorem gap_insertConvertRequest {request : ConvertRequest}
    (run : insertConvertRequest request s = .ok () t) :
    t.gap = s.gap - request.amount.value := by
  obtain ⟨_, added, rfl⟩ := create_eq_ok.mp run
  simp only [ChainState.gap, ChainState.held,
    Table.total_insert? (fun request => request.amount.value) added]
  abel

theorem gap_eraseConvertRequest {request old : ConvertRequest}
    (run : eraseConvertRequest request s = .ok () t)
    (found : s.convertRequests.find? (request.owner, request.requestid) = some old) :
    t.gap = s.gap + old.amount.value := by
  obtain rfl := modify_eq_ok.mp run
  simp only [ChainState.gap, ChainState.held,
    Table.total_erase (fun request => request.amount.value) found]
  abel

theorem gap_putRewardFund {fund old : RewardFund} (run : putRewardFund fund s = .ok () t)
    (found : s.rewardFunds.find? fund.name = some old) :
    t.gap = s.gap + old.held - fund.held := by
  obtain rfl := modify_eq_ok.mp run
  simp only [ChainState.gap, ChainState.held, Table.total_replace RewardFund.held found]
  abel

end Parked

/-! ### What does not enter the books -/

/-- What is neither issued nor held. -/
abbrev OffBooks : Aspect → Prop :=
  Either (Covered (.feedHistory :: .withdrawRoutes :: Part.records))
    (Among [.part .accounts, .account .withdrawal, .account .proxied, .account .proxy,
      .account .requests, .account .ballots, .account .delegated, .account .received,
      .account .power, .account .record, .part .dgp, .global .head, .global .irreversible,
      .global .producer, .global .slots, .global .virtual, .global .rates])

instance : Overlooks (Same ChainState.gap) OffBooks where
  holds {s t} same := by
    have orders : t.limitOrders = s.limitOrders := same (.part .limitOrders) (by decide)
    have escrows : t.escrows = s.escrows := same (.part .escrows) (by decide)
    have withdraws : t.savingsWithdraws = s.savingsWithdraws :=
      same (.part .savingsWithdraws) (by decide)
    have requests : t.convertRequests = s.convertRequests := same (.part .convertRequests) (by decide)
    have funds : t.rewardFunds = s.rewardFunds := same (.part .rewardFunds) (by decide)
    have issued : t.dgp.issued = s.dgp.issued := by
      refine eq_of_gathered [.supply, .fund, .pending] (fun dgp => ?_) (same.globals (by decide))
      funext pool
      cases pool <;> rfl
    have accounts : t.accounts.objects.map Account.held = s.accounts.objects.map Account.held := by
      refine Table.map_eq_of_facetOf (same .names (by decide)) fun first second _ agree => ?_
      refine eq_of_gathered [.liquid, .savings, .dollars, .savingsDollars, .rewards, .owed, .shares]
        (fun account => ?_) fun facet listed => agree facet (same.accounts (by decide) facet listed)
      funext pool
      cases pool <;> rfl
    change t.gap = s.gap
    simp only [ChainState.gap, ChainState.held, Table.total, issued, accounts, orders, escrows,
      withdraws, requests, funds]

/-! ### Vesting -/

theorem Asset.symbol_mulPrice {converted : Asset} (made : asset.mulPrice price = .ok converted) :
    asset.symbol = price.base.symbol ∧ converted.symbol = price.quote.symbol ∨
      asset.symbol = price.quote.symbol ∧ converted.symbol = price.base.symbol := by
  unfold Asset.mulPrice at made
  split at made
  · next onBase =>
    simp only [Asset.convert, except_bind_eq_ok, ensure_eq_ok, except_pure_eq_ok] at made
    obtain ⟨_, _, _, _, rfl⟩ := made
    exact Or.inl ⟨onBase, rfl⟩
  · split at made
    · next onQuote =>
      simp only [Asset.convert, except_bind_eq_ok, ensure_eq_ok, except_pure_eq_ok] at made
      obtain ⟨_, _, _, _, rfl⟩ := made
      exact Or.inr ⟨onQuote, rfl⟩
    · cases made

theorem vestingSharePrice_symbols {props : DynamicGlobalProperties}
    (made : props.vestingSharePrice = .ok price) :
    price.base.symbol = .liquid ∧ price.quote.symbol = .vests ∨
      price.base.symbol = .vests ∧ price.quote.symbol = .liquid := by
  unfold DynamicGlobalProperties.vestingSharePrice at made
  split at made
  · obtain ⟨rfl, _⟩ := Price.make_eq_ok.mp made
    exact Or.inl ⟨rfl, rfl⟩
  · obtain ⟨rfl, _⟩ := Price.make_eq_ok.mp made
    exact Or.inr ⟨rfl, rfl⟩

theorem symbol_mulPrice_vestingSharePrice {props : DynamicGlobalProperties} {converted : Asset}
    (made : props.vestingSharePrice = .ok price) (multiplied : asset.mulPrice price = .ok converted) :
    asset.symbol = .liquid ∧ converted.symbol = .vests ∨
      asset.symbol = .vests ∧ converted.symbol = .liquid := by
  rcases vestingSharePrice_symbols made with ⟨base, quote⟩ | ⟨base, quote⟩ <;>
    rcases Asset.symbol_mulPrice multiplied with ⟨from_, to_⟩ | ⟨from_, to_⟩ <;>
    simp_all

section Vesting

variable {s t : ChainState}

theorem gap_createVesting {liquid : Asset} {shares : ShareType}
    (run : createVesting toAccount liquid s = .ok shares t) : t.gap = s.gap - liquid.value := by
  simp only [createVesting, bind_eq_ok, require_eq_ok, get_eq_ok, lift_eq_ok, pure_eq_ok,
    modifyDgp_eq_ok, except_bind_eq_ok, ShareType.add_eq_ok, except_pure_eq_ok] at run
  obtain ⟨_, _, ⟨isLiquid, rfl⟩, _, _, ⟨rfl, rfl⟩, price, _, ⟨priced, rfl⟩, newVesting, _,
    ⟨converted, rfl⟩, _, paid, adjusted, _, _, ⟨_, ⟨fund, exactFund, total, exactTotal, rfl⟩, rfl⟩,
    _, _, voted, rfl, rfl⟩ := run
  have areVests : newVesting.symbol = .vests := by
    rcases symbol_mulPrice_vestingSharePrice priced converted with ⟨_, vests⟩ | ⟨vests, _⟩
    · exact vests
    · rw [isLiquid] at vests
      cases vests
  rw [sameGap voted, gap_setDgp, gap_adjustBalance adjusted]
  obtain ⟨amount, symbol⟩ := liquid
  obtain ⟨newAmount, newSymbol⟩ := newVesting
  cases isLiquid
  cases areVests
  funext pool
  cases pool <;> simp [DynamicGlobalProperties.issued, Asset.value, AssetSymbol.pool, exactFund,
    exactTotal]
  omega

/-- The books after a reward in vesting shares. A reward too small for a single share is credited
as liquid tokens, but still counted among those owed in shares. -/
theorem gap_createRewardVesting {liquid : Asset} {shares : ShareType}
    (run : createRewardVesting toAccount liquid s = .ok shares t) :
    t.gap = s.gap - liquid.value +
      if shares = 0 then Pi.single Pool.owedLiquid liquid.amount.toInt else 0 := by
  simp only [createRewardVesting, bind_eq_ok, require_eq_ok, get_eq_ok, lift_eq_ok, pure_eq_ok,
    modifyDgp_eq_ok, except_bind_eq_ok, ShareType.add_eq_ok, except_pure_eq_ok] at run
  obtain ⟨_, _, ⟨isLiquid, rfl⟩, _, _, ⟨rfl, rfl⟩, price, _, ⟨priced, rfl⟩, newVesting, _,
    ⟨converted, rfl⟩, _, _, ⟨areVests, rfl⟩, _, paid, adjusted, _, _,
    ⟨_, ⟨pending, exactShares, pendingLiquid, exactLiquid, rfl⟩, rfl⟩, rfl, rfl⟩ := run
  rw [gap_setDgp, gap_adjustRewardBalance adjusted, rewardValue]
  obtain ⟨amount, symbol⟩ := liquid
  cases isLiquid
  by_cases zero : newVesting.amount = 0
  · funext pool
    cases pool <;> simp [DynamicGlobalProperties.issued, Asset.value, AssetSymbol.pool,
      exactShares, exactLiquid, zero]
  · funext pool
    cases pool <;> simp [DynamicGlobalProperties.issued, Asset.value, AssetSymbol.pool,
      exactShares, exactLiquid, zero]

theorem gap_credit {toRewardBalance : Bool}
    (run : credit toAccount asset toRewardBalance s = .ok () t) : t.gap = s.gap - asset.value := by
  unfold credit at run
  split at run
  · rw [gap_adjustRewardBalance run, rewardValue_zero]
  · exact gap_adjustBalance run

/-- Liquid tokens that are turned into dollars leave the supply as the dollars enter it. -/
theorem gap_createDollar {liquid toLiquid : ShareType} {dollars : Asset} {toRewardBalance : Bool}
    (run : createDollar toAccount liquid toRewardBalance s = .ok (dollars, toLiquid) t) :
    t.gap = s.gap - (Asset.mk liquid .liquid).value := by
  unfold createDollar at run
  split at run
  · next zero =>
    obtain ⟨_, rfl⟩ := pure_eq_ok.mp run
    rw [zero, Asset.value_mk_zero, sub_zero]
  · have chosen := get_bind_eq_ok.mp run
    split at chosen
    · simp only [bind_eq_ok, lift_eq_ok, ShareType.sub_eq_ok, ShareType.neg_eq_ok, pure_eq_ok]
        at chosen
      obtain ⟨_, _, ⟨_, rfl⟩, toDollar, _, ⟨_, rfl⟩, toLiquid, _, ⟨exactLiquid, rfl⟩, dollars, _,
        ⟨_, rfl⟩, _, _, creditedDollars, _, _, creditedLiquid, burned, _, ⟨exactBurned, rfl⟩, _, _,
        burning, _, _, printing, _, rfl⟩ := chosen
      rw [gap_adjustSupply printing, gap_adjustSupply burning, gap_credit creditedLiquid,
        gap_credit creditedDollars]
      simp only [Asset.value, AssetSymbol.pool, exactLiquid, exactBurned, Pi.single_sub,
        Pi.single_neg]
      abel
    · simp only [bind_eq_ok, pure_eq_ok] at chosen
      obtain ⟨_, _, adjusted, _, rfl⟩ := chosen
      exact gap_adjustBalance adjusted

end Vesting

end Zattera
