/-
This file follows the vesting fund. Its shares are bought and paid out at the
price the fund has at that moment, rounded down both times. Accounts own all of
the shares, in every state in which a block takes a step; so no payout asks for
more shares than there are, and every deposit and every payout is fair to those
who keep their shares.
-/

import Zattera.Lib.Exchange
import Zattera.Proof.Duplicates
import Zattera.Proof.Phases
import Zattera.Proof.Supply

namespace Zattera

open Program Exchange Faceted

set_option synthInstance.maxSize 4096

variable {s t : ChainState} {shares : ShareType} {u : Unit} {converted : Asset}

/-! ### Accounts own the vesting shares -/

/-- The books of a state in which a block takes a step. -/
structure ChainState.Shared (state : ChainState) : Prop where
  regular : state.Regular
  balanced : state.gap .shares = 0

theorem keeps_shared {α : Type} {x : Chain α} (balances : Respects Balances x) :
    Respects (Keeping ChainState.Shared) x where
  related s a t run shared := by
    obtain ⟨regular, kept⟩ := balances.related s a t run shared.regular
    exact ⟨regular, kept.shares.trans shared.balanced⟩

theorem shared_of_arrives {liquid dollar : ShareType} {step : BlockStep} {u : ChainState}
    (arrives : Arrives (initGenesis liquid dollar) step u) : u.Shared := by
  have inserted (trx : SignedTransaction) : Respects Balances (insertTransaction trx) :=
    balances_of_sameGap
  refine arrives.invariant ⟨regular_initGenesis liquid dollar, ?_⟩
    (fun _ _ valid => keeps_shared (balances_applyOperation valid))
    (fun step => keeps_shared (balances_blockStep step)) fun trx => keeps_shared (inserted trx)
  rw [gap_initGenesis]
  rfl

/-! ### The fund -/

def ChainState.vestingFund (state : ChainState) : Fund :=
  ⟨state.dgp.totalVestingFundLiquid.toInt, state.dgp.totalVestingShares.toInt⟩

instance : Overlooks (Same ChainState.vestingFund) (Either (Covered (.accounts :: Part.tables))
    (Among [.part .dgp, .global .head, .global .irreversible, .global .producer, .global .slots,
      .global .supply, .global .virtual, .global .pending, .global .rates])) where
  holds {s t} same := by
    let view (dgp : DynamicGlobalProperties) : Fund :=
      ⟨dgp.totalVestingFundLiquid.toInt, dgp.totalVestingShares.toInt⟩
    change view t.dgp = view s.dgp
    exact eq_of_gathered [.fund] (fun _ => rfl) (same.globals (by decide))

/-! ### Deposits -/

/-- A conversion is never worth more than the exact quotient, even where it wraps in 64 bits. -/
theorem Asset.convert_le {amount target source : ShareType} {symbol : AssetSymbol}
    (targetPositive : 0 < target.toInt) (positive : 0 < source.toInt)
    (made : Asset.convert amount target source symbol = .ok converted) :
    0 ≤ amount.toInt ∧
      converted.amount.toInt ≤ amount.toInt * target.toInt / source.toInt := by
  have nonneg := Asset.nonneg_of_convert targetPositive positive made
  refine ⟨nonneg, ?_⟩
  rcases le_or_gt converted.amount.toInt 0 with lost | gained
  · exact lost.trans (Int.ediv_nonneg (Int.mul_nonneg nonneg targetPositive.le) positive.le)
  · have small := Asset.small_of_convert nonneg targetPositive.le positive made gained
    exact ((Asset.convert_eq_ok nonneg targetPositive.le positive small).mp made).2.le

theorem fund_createVesting {toAccount : AccountName} {liquid : Asset}
    (run : createVesting toAccount liquid s = .ok shares t) :
    liquid.symbol = .liquid ∧
      (∃ price newVesting, s.dgp.vestingSharePrice = .ok price ∧
        liquid.mulPrice price = .ok newVesting ∧ shares = newVesting.amount) ∧
      t.vestingFund =
        ⟨s.vestingFund.assets + liquid.amount.toInt, s.vestingFund.shares + shares.toInt⟩ := by
  simp only [createVesting, bind_eq_ok, require_eq_ok, get_eq_ok, lift_eq_ok, pure_eq_ok,
    modifyDgp_eq_ok, except_bind_eq_ok, ShareType.add_eq_ok, except_pure_eq_ok] at run
  obtain ⟨_, _, ⟨isLiquid, rfl⟩, _, _, ⟨rfl, rfl⟩, price, _, ⟨priced, rfl⟩, newVesting, _,
    ⟨converted, rfl⟩, _, paid, adjusted, _, _, ⟨_, ⟨fund, exactFund, total, exactTotal, rfl⟩, rfl⟩,
    _, final, voted, rfl, rfl⟩ := run
  have sameFund : paid.vestingFund = s.vestingFund := viewed adjusted
  have after : final.vestingFund = _ := viewed voted
  refine ⟨isLiquid, ⟨price, newVesting, priced, converted, rfl⟩, ?_⟩
  rw [after, ← sameFund]
  change Fund.mk fund.toInt total.toInt = _
  rw [exactFund, exactTotal]
  rfl

theorem fair_createVesting {toAccount : AccountName} {liquid : Asset}
    (run : createVesting toAccount liquid s = .ok shares t) (filled : 0 < s.vestingFund.assets) :
    s.vestingFund.Fair t.vestingFund := by
  obtain ⟨isLiquid, ⟨price, newVesting, priced, converted, rfl⟩, after⟩ := fund_createVesting run
  rw [after]
  obtain ⟨amount, symbol⟩ := liquid
  cases isLiquid
  have filled' : s.dgp.totalVestingFundLiquid ≠ 0 := fun empty => by
    change 0 < s.dgp.totalVestingFundLiquid.toInt at filled
    rw [empty] at filled
    exact absurd filled (by decide)
  unfold DynamicGlobalProperties.vestingSharePrice at priced
  split at priced
  · next empty =>
    -- without shares there is no ratio yet, and the first ones are sold at the initial price
    obtain ⟨rfl, _⟩ := Price.make_eq_ok.mp priced
    rw [Asset.mulPrice, if_pos rfl] at converted
    have none_ : s.vestingFund.shares = 0 := by
      change s.dgp.totalVestingShares.toInt = 0
      rw [empty.resolve_left filled']
      rfl
    have nonneg := (Asset.convert_le (by decide) (by decide) converted).1
    exact Fund.fair_deposit filled nonneg fun owned => absurd owned (by omega)
  · obtain ⟨rfl, owned, _⟩ := Price.make_eq_ok.mp priced
    rw [Int64.lt_iff_toInt_lt] at owned
    rw [Asset.mulPrice, if_neg (by simp), if_pos rfl] at converted
    obtain ⟨nonneg, rounded⟩ := Asset.convert_le owned filled converted
    exact Fund.fair_deposit filled nonneg fun _ => rounded

/-! ### Payouts -/

/-- The price of shares in a fund that is not empty. -/
theorem valueOfShares_eq {price : Price} (nonneg : 0 ≤ shares.toInt)
    (limited : shares.toInt ≤ s.vestingFund.shares) (filled : 0 < s.vestingFund.assets)
    (priced : s.dgp.vestingSharePrice = .ok price)
    (valued : (Asset.mk shares .vests).mulPrice price = .ok converted) :
    converted.amount.toInt = shares.toInt * s.vestingFund.assets / s.vestingFund.shares := by
  have upper := Int64.toInt_lt s.dgp.totalVestingFundLiquid
  change _ < (9223372036854775808 : Int) at upper
  change s.vestingFund.assets < _ at upper
  unfold DynamicGlobalProperties.vestingSharePrice at priced
  split at priced
  · next empty =>
    have none_ : shares = 0 := by
      rcases empty with empty | empty
      · change 0 < s.dgp.totalVestingFundLiquid.toInt at filled
        rw [empty] at filled
        exact absurd filled (by decide)
      · change _ ≤ s.dgp.totalVestingShares.toInt at limited
        rw [empty] at limited
        exact Int64.toInt_inj.mp (le_antisymm limited nonneg)
    subst none_
    obtain ⟨rfl, _⟩ := Price.make_eq_ok.mp priced
    rw [Asset.mulPrice, if_neg (by simp), if_pos rfl,
      Asset.convert_eq_ok le_rfl (by decide) (by decide) (by decide)] at valued
    rw [valued.2]
    simp
  · obtain ⟨rfl, owned, _⟩ := Price.make_eq_ok.mp priced
    rw [Int64.lt_iff_toInt_lt] at owned
    have small : shares.toInt * s.vestingFund.assets / s.vestingFund.shares ≤
        s.vestingFund.assets := by
      refine Int.ediv_le_of_le_mul owned ?_
      rw [mul_comm]
      exact Int.mul_le_mul_of_nonneg_left limited filled.le
    rw [Asset.mulPrice, if_pos rfl] at valued
    exact ((Asset.convert_eq_ok nonneg filled.le owned (small.trans_lt upper)).mp valued).2

/-- A payout of shares that exist. -/
theorem payout_of_value {price : Price} (nonneg : 0 ≤ shares.toInt)
    (limited : shares.toInt ≤ s.vestingFund.shares) (priced : s.dgp.vestingSharePrice = .ok price)
    (valued : (Asset.mk shares .vests).mulPrice price = .ok converted) :
    s.vestingFund.Payout ⟨s.vestingFund.assets - converted.amount.toInt,
      s.vestingFund.shares - shares.toInt⟩ := by
  refine ⟨_, _, (valueOfShares_bounds nonneg limited priced valued).1, nonneg, rfl, fun filled => ?_⟩
  rw [valueOfShares_eq nonneg limited filled priced valued]
  exact Fund.fair_payout filled nonneg limited

/-- Nothing but payouts happens to the fund, one after the other. -/
def PaysOut (s t : ChainState) : Prop :=
  Relation.ReflTransGen Fund.Payout s.vestingFund t.vestingFund

instance : Std.Refl PaysOut := ⟨fun _ => .refl⟩

instance : IsTrans ChainState PaysOut := ⟨fun _ _ _ => Relation.ReflTransGen.trans⟩

theorem paysOut_of_same (same : t.vestingFund = s.vestingFund) : PaysOut s t := by
  unfold PaysOut
  rw [same]

theorem fund_takeFromFund {liquid : ShareType} (run : takeFromFund liquid shares s = .ok u t) :
    t.vestingFund =
      ⟨s.vestingFund.assets - liquid.toInt, s.vestingFund.shares - shares.toInt⟩ := by
  obtain ⟨dgp, made, rfl⟩ := modifyDgp_eq_ok.mp run
  simp only [except_bind_eq_ok, ShareType.sub_eq_ok, except_pure_eq_ok] at made
  obtain ⟨fund, exactFund, total, exactTotal, rfl⟩ := made
  change Fund.mk fund.toInt total.toInt = _
  rw [exactFund, exactTotal]
  rfl

/-- The second pass pays out what it deposits, while there are shares left for all of it. -/
theorem paysOut_depositLiquid {toWithdraw deposited total : ShareType}
    {routes : List WithdrawVestingRoute} (nonneg : 0 ≤ toWithdraw.toInt)
    (percents : ∀ route ∈ routes, route.percent ≤ 10000)
    (run : depositLiquid toWithdraw routes deposited s = .ok total t)
    (limited : total.toInt - deposited.toInt ≤ s.vestingFund.shares) :
    PaysOut s t ∧
      t.vestingFund.shares = s.vestingFund.shares - (total.toInt - deposited.toInt) := by
  induction routes generalizing s deposited with
  | nil =>
    obtain ⟨rfl, rfl⟩ := pure_eq_ok.mp run
    exact ⟨refl _, by omega⟩
  | cons route rest inductionHypothesis =>
    have further := fun route member => percents route (List.mem_cons_of_mem _ member)
    unfold depositLiquid at run
    split at run
    · simp only [bind_eq_ok, discard_eq_ok, getAccount_eq_ok, lift_eq_ok, ShareType.add_eq_ok,
        and_assoc, exists_and_left, exists_eq_left', exists_and_right] at run
      obtain ⟨_, _, toDeposit, computed, soFar, exact_, converted, _, valued, _, middle, deposit,
        looped⟩ := run
      obtain rfl := unmoved valued
      have bounds := WithdrawVestingRoute.deposit_bounds nonneg
        (percents route List.mem_cons_self) computed
      have later := (gap_depositLiquid nonneg further looped).1
      have paid : PaysOut s middle ∧
          middle.vestingFund.shares = s.vestingFund.shares - toDeposit.toInt := by
        rcases whenever_eq_ok.mp deposit with ⟨_, deposit⟩ | ⟨none_, rfl⟩
        · obtain ⟨_, credited, added, taken⟩ := bind_eq_ok.mp deposit
          have same : credited.vestingFund = s.vestingFund := by
            dsimp only [addLiquid] at added
            exact viewed added
          simp only [convertVests, bind_eq_ok, get_eq_ok, lift_eq_ok, and_assoc, exists_and_left,
            exists_eq_left'] at valued
          obtain ⟨price, priced, valued, _⟩ := valued
          have payout := payout_of_value bounds.1 (by omega) priced valued
          have after := fund_takeFromFund taken
          rw [same] at after
          rw [← after] at payout
          exact ⟨.single payout, congrArg Fund.shares after⟩
        · rw [Int64.lt_iff_toInt_lt] at none_
          have zero : toDeposit.toInt = 0 := le_antisymm (not_lt.mp none_) bounds.1
          exact ⟨refl _, by omega⟩
      obtain ⟨rest, shares⟩ := inductionHypothesis further looped (by omega)
      exact ⟨paid.1.trans rest, by omega⟩
    · exact inductionHypothesis further run limited

theorem paysOut_withdrawFrom {account : Account} (shared : s.Shared)
    (found : s.accounts.find? account.name = some account) (run : withdrawFrom account s = .ok u t) :
    PaysOut s t := by
  obtain ⟨toWithdraw, asVests, asLiquid, toConvert, converted, vested, paid, credited, funded, nonneg,
    due, percents, deposits, payments, exactConvert, remains, valued, changed, taken, voted⟩ :=
    withdrawFrom_eq_ok shared.regular.sound found run
  have owned := ChainState.shares_le_total shared.regular shared.balanced (Table.mem_of_find? found)
  -- what is left after both passes is not negative, so they ask for no more than the account has
  have vestsNonneg : 0 ≤ asVests.toInt := (gap_depositVests nonneg percents deposits).1
  have liquidNonneg : 0 ≤ asLiquid.toInt := (gap_depositLiquid nonneg percents payments).1
  have first : vested.vestingFund = s.vestingFund := viewed deposits
  have limit : account.vestingShareBalance.toInt ≤ s.vestingFund.shares := owned
  have zero : (0 : ShareType).toInt = 0 := rfl
  obtain ⟨second, shares⟩ := paysOut_depositLiquid nonneg percents payments (by rw [first]; omega)
  have third : credited.vestingFund = paid.vestingFund := viewed changed
  simp only [convertVests, bind_eq_ok, get_eq_ok, lift_eq_ok, and_assoc, exists_and_left,
    exists_eq_left'] at valued
  obtain ⟨price, priced, valued, _⟩ := valued
  have payout := payout_of_value remains (by rw [shares, first]; omega) priced valued
  have after := fund_takeFromFund taken
  rw [third] at after
  rw [← after] at payout
  have last : t.vestingFund = funded.vestingFund := viewed voted
  exact IsTrans.trans s vested t (paysOut_of_same first) <|
    IsTrans.trans vested paid t second <|
    IsTrans.trans paid funded t (.single payout) (paysOut_of_same last)

theorem paysOut_processVestingWithdrawals (shared : s.Shared)
    (run : processVestingWithdrawals s = .ok u t) : PaysOut s t :=
  ((respects_withdrawals (R := PaysOut) fun _ _ _ _ shared found run =>
    ⟨⟨⟨keeps run shared.regular.kept, sound_withdrawFrom shared.regular.sound found run⟩,
      (congrFun (gap_withdrawFrom shared.regular.sound found run) _).trans shared.balanced⟩,
      paysOut_withdrawFrom shared found run⟩).related s u t run shared).2

/-- The shares of the null account are paid out as well. -/
theorem paysOut_burnVestingShares {burned : ShareType} (shared : s.Shared)
    (run : burnVestingShares s = .ok burned t) : PaysOut s t := by
  simp only [burnVestingShares, bind_eq_ok, getAccount_eq_ok, and_assoc, exists_and_left,
    exists_eq_left'] at run
  obtain ⟨account, found, run⟩ := run
  split at run
  · simp only [bind_eq_ok, get_eq_ok, lift_eq_ok, pure_eq_ok, and_assoc, exists_and_left,
      exists_eq_left'] at run
    obtain ⟨price, priced, converted, valued, _, funded, taken, _, final, emptied, rfl, rfl⟩ := run
    obtain ⟨dgp, made, rfl⟩ := modifyDgp_eq_ok.mp taken
    simp only [except_bind_eq_ok, ShareType.sub_eq_ok, except_pure_eq_ok] at made
    obtain ⟨total, exactTotal, fund, exactFund, rfl⟩ := made
    have member := Table.mem_of_find? found
    have payout := payout_of_value (shared.regular.sound.accounts account member).shares
      (ChainState.shares_le_total shared.regular shared.balanced member) priced valued
    have after : final.vestingFund = ⟨fund.toInt, total.toInt⟩ := viewed emptied
    rw [exactFund, exactTotal] at after
    unfold PaysOut
    rw [after]
    exact .single payout
  · obtain ⟨rfl, rfl⟩ := pure_eq_ok.mp run
    exact refl _

/-- Burning other tokens leaves the shares of all accounts as they are. -/
theorem shared_burn {held : Account → ShareType} {adjust : Asset → Chain Unit}
    {symbol : AssetSymbol} {burned : ShareType}
    [∀ taken, Respects (Keeping ChainState.Regular) (adjust taken)] (other : symbol.pool ≠ .shares)
    (adjusts : ∀ taken s t u, adjust taken s = .ok u t → t.gap = s.gap - taken.value)
    (run : burn (fun account => ⟨held account, symbol⟩) adjust s = .ok burned t) (shared : s.Shared) :
    t.Shared := by
  refine ⟨keeps run shared.regular, ?_⟩
  rw [(gap_burn adjusts run).2, Pi.add_apply, shared.balanced, Asset.value,
    Pi.single_eq_of_ne other.symm, add_zero]

theorem paysOut_clearNullAccountBalance (shared : s.Shared)
    (run : clearNullAccountBalance s = .ok u t) : PaysOut s t := by
  simp only [clearNullAccountBalance, bind_eq_ok, lift_eq_ok, and_assoc, exists_and_left,
    exists_eq_left'] at run
  obtain ⟨liquid, s₁, burnLiquid, savings, s₂, burnSavings, dollars, s₃, burnDollars,
    savingsDollars, s₄, burnSavingsDollars, vested, s₅, burnVested, rewardLiquid, s₆,
    burnRewardLiquid, rewardDollars, s₇, burnRewardDollars, rewardVested, s₈, burnRewardVested,
    totalLiquid, sumLiquid, totalDollars, sumDollars, _, s₉, shrinkLiquid, shrinkDollars⟩ := run
  have balance (taken : Asset) (s t : ChainState) (u : Unit)
      (run : adjustBalance AccountName.null taken s = .ok u t) := gap_adjustBalance run
  have savingsBalance (taken : Asset) (s t : ChainState) (u : Unit)
      (run : adjustSavingsBalance AccountName.null taken s = .ok u t) :=
    gap_adjustSavingsBalance run
  have shared₄ : s₄.Shared :=
    shared_burn (by decide) savingsBalance burnSavingsDollars <|
    shared_burn (by decide) balance burnDollars <|
    shared_burn (by decide) savingsBalance burnSavings <|
    shared_burn (by decide) balance burnLiquid shared
  have before : s₄.vestingFund = s.vestingFund :=
    (viewed burnSavingsDollars).trans <| (viewed burnDollars).trans <|
      (viewed burnSavings).trans (viewed burnLiquid)
  have after : t.vestingFund = s₅.vestingFund :=
    (viewed shrinkDollars).trans <| (viewed shrinkLiquid).trans <|
      (viewed burnRewardVested).trans <| (viewed burnRewardDollars).trans (viewed burnRewardLiquid)
  exact IsTrans.trans s s₄ t (paysOut_of_same before) <|
    IsTrans.trans s₄ s₅ t (paysOut_burnVestingShares shared₄ burnVested) (paysOut_of_same after)

/-! ### The ratio -/

/-- Deposits and payouts are fair to those who keep their shares, whatever supplies the chain starts
with. -/
theorem vestingFund_fair :
    (∀ (s t : ChainState) (toAccount : AccountName) (liquid : Asset) (shares : ShareType),
      createVesting toAccount liquid s = .ok shares t → 0 < s.vestingFund.assets →
        s.vestingFund.Fair t.vestingFund) ∧
    ∀ (liquid dollar : ShareType) (s t : ChainState),
      (Arrives (initGenesis liquid dollar) .vestingWithdrawals s →
        processVestingWithdrawals s = .ok () t → PaysOut s t) ∧
      (Arrives (initGenesis liquid dollar) .nullAccountBalance s →
        clearNullAccountBalance s = .ok () t → PaysOut s t) :=
  ⟨fun _ _ _ _ _ run filled => fair_createVesting run filled, fun _ _ _ _ =>
    ⟨fun arrives run => paysOut_processVestingWithdrawals (shared_of_arrives arrives) run,
      fun arrives run => paysOut_clearNullAccountBalance (shared_of_arrives arrives) run⟩⟩

/-- A second block, in which the genesis witness gives tokens to the null account as shares. -/
def vestingBlock : SignedBlock :=
  genesisBlock firstBlock.id [{ genesisVote [genesisPublicKey] with
    operations := [.transferToVesting ⟨AccountName.genesis, AccountName.null, ⟨1000, .liquid⟩⟩] }]

/-- The reward of the first block fills the fund, and the shares of the null account are burned in
the second one. -/
theorem vestingFund_fair_vestingBlock :
    (∃ s t shares, createVesting AccountName.genesis ⟨1000, .liquid⟩ s = .ok shares t ∧
      0 < s.vestingFund.assets ∧ s.vestingFund.Fair t.vestingFund) ∧
    (∃ s t, Arrives (initGenesis 1000000 0) .vestingWithdrawals s ∧
      processVestingWithdrawals s = .ok () t ∧ 0 < s.vestingFund.assets ∧ PaysOut s t) ∧
    ∃ s t, Arrives (initGenesis 1000000 0) .nullAccountBalance s ∧
      clearNullAccountBalance s = .ok () t ∧ s.vestingFund.shares ≠ t.vestingFund.shares ∧
      PaysOut s t := by
  refine ⟨?_, ?_, ?_⟩
  · have finished : ∃ v s, applyBlock {} false firstBlock (initGenesis 1000000 0) = .ok v s ∧
        0 < s.vestingFund.assets ∧
        Finishes (createVesting AccountName.genesis ⟨1000, .liquid⟩) s := by decide +kernel
    obtain ⟨_, s, _, filled, shares, t, run⟩ := finished
    exact ⟨s, t, shares, run, filled, vestingFund_fair.1 s t _ _ shares run filled⟩
  · have finished : ∃ v s, upTo [firstBlock] vestingBlock 11 (initGenesis 1000000 0) = .ok v s ∧
        0 < s.vestingFund.assets ∧ Finishes processVestingWithdrawals s := by decide +kernel
    obtain ⟨_, s, reached, filled, _, t, run⟩ := finished
    have arrives : Arrives (initGenesis 1000000 0) .vestingWithdrawals s := by
      refine arrives_upTo ?_ reached
      rfl
    exact ⟨s, t, arrives, run, filled, (vestingFund_fair.2 1000000 0 s t).1 arrives run⟩
  · have finished : ∃ v s, upTo [firstBlock] vestingBlock 7 (initGenesis 1000000 0) = .ok v s ∧
        ∃ u t, clearNullAccountBalance s = .ok u t ∧ s.vestingFund.shares ≠ t.vestingFund.shares := by
      decide +kernel
    obtain ⟨_, s, reached, _, t, run, paid⟩ := finished
    have arrives : Arrives (initGenesis 1000000 0) .nullAccountBalance s := by
      refine arrives_upTo ?_ reached
      rfl
    exact ⟨s, t, arrives, run, paid, (vestingFund_fair.2 1000000 0 s t).2 arrives run⟩

/-! ### Every reachable state -/

/-- Nothing that is parked is vesting shares, the fees of approved escrows are paid, no route takes
more than a whole withdrawal, and no account has less than no shares or more than there are. -/
theorem shares_in_bounds {liquid dollar : ShareType} {state : ChainState}
    (reached : Reachable (initGenesis liquid dollar) state) :
    state.Regular ∧ ∀ account ∈ state.accounts,
      account.vestingShareBalance.toInt ≤ state.dgp.totalVestingShares.toInt := by
  have shared : state.Shared := by
    refine reached.invariant ⟨regular_initGenesis liquid dollar, ?_⟩
      fun before after step shared validated _ run =>
        (keeps_shared (balances_run validated)).related before _ after run shared
    exact congrFun (gap_initGenesis liquid dollar) _
  exact ⟨shared.regular, fun _ member =>
    ChainState.shares_le_total shared.regular shared.balanced member⟩

theorem shares_in_bounds_firstBlock :
    ∃ state, applyBlock {} false firstBlock genesis = .ok () state ∧ state.Regular ∧
      ∀ account ∈ state.accounts,
        account.vestingShareBalance.toInt ≤ state.dgp.totalVestingShares.toInt := by
  obtain ⟨state, applied, reached⟩ := firstBlock_reached
  exact ⟨state, applied, shares_in_bounds reached⟩

end Zattera
