/-
This file keeps the books through the steps of a block that create and destroy
tokens: burning, inflation, conversions and payouts. Payouts may leave dust
among the liquid tokens counted as owed in vesting shares, and burning takes
what the null account is owed for not negative; dollars and vesting shares are
balanced in any case, and where nothing is owed every token is accounted for.
-/

import Zattera.Proof.Withdrawals

namespace Zattera

open Program Faceted

set_option synthInstance.maxSize 4096

variable {burned total : ShareType} {u : Unit}

/-! ### Vesting shares are held by accounts alone -/

theorem Asset.value_shares {asset : Asset} (circulating : asset.symbol ≠ .vests) :
    asset.value .shares = 0 := by
  obtain ⟨amount, symbol⟩ := asset
  cases symbol with
  | vests => exact absurd rfl circulating
  | _ => simp [Asset.value, AssetSymbol.pool]

theorem ChainState.held_shares {s : ChainState} (kept : s.WellKept) :
    s.held .shares = s.accounts.total fun account => account.vestingShareBalance.toInt := by
  have orders : s.limitOrders.total (fun order => order.amountForSale.value .shares) = 0 :=
    Table.total_eq_zero fun order member => Asset.value_shares (kept.orders order member).1
  have escrows : s.escrows.total (fun escrow => escrow.held .shares) = 0 := by
    refine Table.total_eq_zero fun escrow member => ?_
    simp only [Escrow.held, Pi.add_apply, Asset.value_shares (kept.escrows escrow member).1]
    simp [Asset.value, AssetSymbol.pool]
  have withdraws : s.savingsWithdraws.total (fun withdraw => withdraw.amount.value .shares) = 0 :=
    Table.total_eq_zero fun withdraw member => Asset.value_shares (kept.withdraws withdraw member)
  have requests : s.convertRequests.total (fun request => request.amount.value .shares) = 0 :=
    Table.total_eq_zero fun request member => Asset.value_shares (kept.requests request member)
  have funds : s.rewardFunds.total (fun fund => fund.held .shares) = 0 :=
    Table.total_eq_zero fun fund _ => Asset.value_shares AssetSymbol.liquid_ne_vests
  simp only [ChainState.held, Pi.add_apply, Table.total_apply, orders, escrows, withdraws, requests,
    funds, add_zero]
  rfl

/-- Where the books balance, no account has more vesting shares than there are. -/
theorem ChainState.shares_le_total {s : ChainState} {account : Account} (regular : s.Regular)
    (balanced : s.gap .shares = 0) (member : account ∈ s.accounts) :
    account.vestingShareBalance.toInt ≤ s.dgp.totalVestingShares.toInt := by
  have total : s.dgp.totalVestingShares.toInt =
      s.accounts.total fun account => account.vestingShareBalance.toInt := by
    rw [← ChainState.held_shares regular.kept]
    exact sub_eq_zero.mp balanced
  rw [total]
  refine List.single_le_sum (fun shares listed => ?_) _ (List.mem_map_of_mem member)
  obtain ⟨other, stored, rfl⟩ := List.mem_map.mp listed
  exact (regular.sound.accounts other stored).shares

/-- Part of the vesting shares is worth part of the fund. -/
theorem valueOfShares_bounds {props : DynamicGlobalProperties} {price : Price} {shares : ShareType}
    {converted : Asset} (nonneg : 0 ≤ shares.toInt)
    (limited : shares.toInt ≤ props.totalVestingShares.toInt)
    (priced : props.vestingSharePrice = .ok price)
    (valued : (Asset.mk shares .vests).mulPrice price = .ok converted) :
    0 ≤ converted.amount.toInt ∧ converted.amount.toInt ≤ max shares.toInt
      props.totalVestingFundLiquid.toInt := by
  have small := Int64.toInt_lt shares
  unfold DynamicGlobalProperties.vestingSharePrice at priced
  split at priced
  · obtain ⟨rfl, _⟩ := Price.make_eq_ok.mp priced
    rw [Asset.mulPrice, if_neg (by simp), if_pos rfl] at valued
    have quotient : shares.toInt * (1000 : ShareType).toInt / (1000000 : ShareType).toInt =
        shares.toInt * 1000 / 1000000 := rfl
    rw [Asset.convert_eq_ok nonneg (by decide) (by decide) (by rw [quotient]; omega),
      quotient] at valued
    omega
  · obtain ⟨rfl, positive, fundPositive, _⟩ := Price.make_eq_ok.mp priced
    rw [Int64.lt_iff_toInt_lt] at positive fundPositive
    change 0 < props.totalVestingShares.toInt at positive
    change 0 < props.totalVestingFundLiquid.toInt at fundPositive
    have bounded := Int64.toInt_lt props.totalVestingFundLiquid
    have quotient : shares.toInt * props.totalVestingFundLiquid.toInt /
        props.totalVestingShares.toInt ≤ props.totalVestingFundLiquid.toInt := by
      refine Int.ediv_le_of_le_mul positive ?_
      rw [mul_comm]
      exact Int.mul_le_mul_of_nonneg_left limited fundPositive.le
    rw [Asset.mulPrice, if_pos rfl, Asset.convert_eq_ok nonneg fundPositive.le positive
      (by omega)] at valued
    refine ⟨?_, ?_⟩
    · rw [valued.2]
      exact Int.ediv_nonneg (Int.mul_nonneg nonneg fundPositive.le) positive.le
    · rw [valued.2]
      exact quotient.trans (le_max_right _ _)

/-! ### Burning -/

section Burning

variable {s t : ChainState}

/-- What is burned is missing from the holdings. -/
theorem gap_burn {held : Account → ShareType} {adjust : Asset → Chain Unit} {symbol : AssetSymbol}
    (adjusts : ∀ taken s t u, adjust taken s = .ok u t → t.gap = s.gap - taken.value)
    (run : burn (fun account => ⟨held account, symbol⟩) adjust s = .ok burned t) :
    0 ≤ burned.toInt ∧ t.gap = s.gap + (Asset.mk burned symbol).value := by
  simp only [burn, bind_eq_ok, getAccount_eq_ok, and_assoc, exists_and_left, exists_eq_left'] at run
  obtain ⟨account, found, run⟩ := run
  split at run
  · next positive =>
    simp only [bind_eq_ok, lift_eq_ok, pure_eq_ok, and_assoc, exists_and_left,
      exists_eq_left'] at run
    obtain ⟨taken, negated, _, _, adjusted, rfl, rfl⟩ := run
    rw [Int64.lt_iff_toInt_lt] at positive
    refine ⟨positive.le, ?_⟩
    rw [adjusts taken _ _ _ adjusted, Asset.value_neg negated, sub_neg_eq_add]
  · obtain ⟨rfl, rfl⟩ := pure_eq_ok.mp run
    refine ⟨le_rfl, ?_⟩
    rw [Asset.value_mk_zero, add_zero]

theorem gap_burnVestingShares (run : burnVestingShares s = .ok burned t) :
    t.gap = s.gap + (Asset.mk burned .liquid).value := by
  simp only [burnVestingShares, bind_eq_ok, getAccount_eq_ok, and_assoc, exists_and_left,
    exists_eq_left'] at run
  obtain ⟨account, found, run⟩ := run
  split at run
  · simp only [bind_eq_ok, get_eq_ok, lift_eq_ok, pure_eq_ok, and_assoc, exists_and_left,
      exists_eq_left'] at run
    obtain ⟨price, _, converted, _, _, funded, taken, _, _, emptied, rfl, rfl⟩ := run
    obtain ⟨dgp, made, rfl⟩ := modifyDgp_eq_ok.mp taken
    simp only [except_bind_eq_ok, ShareType.sub_eq_ok, except_pure_eq_ok] at made
    obtain ⟨total, exactTotal, fund, exactFund, rfl⟩ := made
    have gone := gap_modifyAccount emptied fun current changed again made => by
      change s.accounts.find? _ = _ at again
      rw [found, Option.some.injEq] at again
      cases made
      rw [← again]
      exact ⟨rfl, held_vestingShareBalance account 0⟩
    rw [gone, gap_setDgp]
    funext pool
    cases pool <;> simp [DynamicGlobalProperties.issued, Asset.value, AssetSymbol.pool, exactTotal,
      exactFund]
  · obtain ⟨rfl, rfl⟩ := pure_eq_ok.mp run
    rw [Asset.value_mk_zero, add_zero]

theorem gap_burnRewardShares (run : burnRewardShares s = .ok burned t) :
    t.gap = s.gap + (Asset.mk burned .liquid).value := by
  simp only [burnRewardShares, bind_eq_ok, getAccount_eq_ok, and_assoc, exists_and_left,
    exists_eq_left'] at run
  obtain ⟨account, found, run⟩ := run
  split at run
  · simp only [bind_eq_ok, pure_eq_ok] at run
    obtain ⟨_, pended, taken, _, _, emptied, rfl, rfl⟩ := run
    obtain ⟨dgp, made, rfl⟩ := modifyDgp_eq_ok.mp taken
    simp only [except_bind_eq_ok, ShareType.sub_eq_ok, except_pure_eq_ok] at made
    obtain ⟨shares, exactShares, liquid, exactLiquid, rfl⟩ := made
    have gone := gap_modifyAccount emptied fun current changed again made => by
      change s.accounts.find? _ = _ at again
      rw [found, Option.some.injEq] at again
      cases made
      rw [← again]
      exact ⟨rfl, (held_rewardVesting account 0 0).trans (by rw [add_assoc, add_assoc])⟩
    rw [gone, gap_setDgp]
    funext pool
    cases pool <;> simp [DynamicGlobalProperties.issued, Asset.value, AssetSymbol.pool, exactShares,
      exactLiquid]
  · obtain ⟨rfl, rfl⟩ := pure_eq_ok.mp run
    rw [Asset.value_mk_zero, add_zero]

theorem toInt_foldlM_add {shares : List ShareType} {start : ShareType}
    (made : shares.foldlM ShareType.add start = .ok total) :
    total.toInt = start.toInt + (shares.map Int64.toInt).sum := by
  induction shares generalizing start with
  | nil =>
    cases made
    simp
  | cons share rest inductionHypothesis =>
    rw [List.foldlM_cons, except_bind_eq_ok] at made
    obtain ⟨sum, added, made⟩ := made
    rw [inductionHypothesis made, ShareType.add_eq_ok.mp added, List.map_cons, List.sum_cons,
      add_assoc]

theorem toInt_sumShares {shares : List ShareType} (made : sumShares shares = .ok total) :
    total.toInt = (shares.map Int64.toInt).sum := by
  rw [toInt_foldlM_add made]
  exact zero_add _

/-- A negative total is not taken out of the supply. -/
theorem gap_shrinkSupply {symbol : AssetSymbol} (run : shrinkSupply burned symbol s = .ok u t) :
    t.gap = s.gap - Pi.single symbol.pool (max burned.toInt 0) := by
  rcases whenever_eq_ok.mp run with ⟨positive, run⟩ | ⟨negative, rfl⟩
  · simp only [bind_eq_ok, lift_eq_ok, ShareType.neg_eq_ok, and_assoc, exists_and_left,
      exists_eq_left'] at run
    obtain ⟨taken, negated, run⟩ := run
    rw [Int64.lt_iff_toInt_lt, Int64.toInt_zero] at positive
    rw [gap_adjustSupply run, Asset.value, negated, Pi.single_neg, sub_eq_add_neg,
      max_eq_left positive.le]
  · rw [Int64.lt_iff_toInt_lt, Int64.toInt_zero] at negative
    rw [max_eq_right (Int.not_lt.mp negative), Pi.single_zero, sub_zero]

/-- The shares of the null account are worth no more than the whole fund. -/
theorem burnVestingShares_nonneg (regular : s.Regular) (balanced : s.gap .shares = 0)
    (run : burnVestingShares s = .ok burned t) : 0 ≤ burned.toInt := by
  simp only [burnVestingShares, bind_eq_ok, getAccount_eq_ok, and_assoc, exists_and_left,
    exists_eq_left'] at run
  obtain ⟨account, found, run⟩ := run
  split at run
  · next positive =>
    simp only [bind_eq_ok, get_eq_ok, lift_eq_ok, pure_eq_ok, and_assoc, exists_and_left,
      exists_eq_left'] at run
    obtain ⟨price, priced, converted, valued, _, _, _, _, _, _, rfl, _⟩ := run
    have shares := (regular.sound.accounts account (Table.mem_of_find? found)).shares
    have limited := ChainState.shares_le_total regular balanced (Table.mem_of_find? found)
    exact (valueOfShares_bounds shares limited priced valued).1
  · obtain ⟨rfl, rfl⟩ := pure_eq_ok.mp run
    exact le_rfl

/-- Nothing to burn where nothing is owed. -/
theorem burnRewardShares_idle (idle : s.Idle) (run : burnRewardShares s = .ok burned t) :
    burned = 0 ∧ t = s := by
  simp only [burnRewardShares, bind_eq_ok, getAccount_eq_ok, and_assoc, exists_and_left,
    exists_eq_left'] at run
  obtain ⟨account, found, run⟩ := run
  have none_ : account.rewardVestingShareBalance = 0 :=
    congrArg Prod.fst (idle.unowed account (Table.mem_of_find? found))
  rw [none_, if_neg (by decide)] at run
  obtain ⟨rfl, rfl⟩ := pure_eq_ok.mp run
  exact ⟨rfl, rfl⟩

instance : Respects (Keeping ChainState.Sound) burnVestingShares := by
  refine .step inferInstance fun account => @Respects.ite _ _ _ _ _ _ _ _ ?_ inferInstance
  repeat with_reducible refine .step inferInstance fun _ => ?_
  refine .step (sound_updateAccount fun _ sound => ?_) fun _ => inferInstance
  exact ⟨le_rfl, sound.rate, sound.asked⟩

instance : Respects (Keeping ChainState.Idle) burnRewardShares where
  related s burned t run idle := by
    obtain ⟨_, rfl⟩ := burnRewardShares_idle idle run
    exact idle

/-- All that is burned leaves the supply, but for liquid tokens whose total comes out negative. -/
theorem gap_clearNullAccountBalance (run : clearNullAccountBalance s = .ok u t) :
    ∃ kept : Int, t.gap = s.gap + Pi.single Pool.liquid kept ∧
      (s.Regular → s.Idle → s.gap .shares = 0 → kept = 0) := by
  simp only [clearNullAccountBalance, bind_eq_ok, lift_eq_ok, and_assoc, exists_and_left,
    exists_eq_left'] at run
  obtain ⟨liquid, s₁, burnLiquid, savings, s₂, burnSavings, dollars, s₃, burnDollars,
    savingsDollars, s₄, burnSavingsDollars, vested, s₅, burnVested, rewardLiquid, s₆,
    burnRewardLiquid, rewardDollars, s₇, burnRewardDollars, rewardVested, s₈, burnRewardVested,
    totalLiquid, sumLiquid, totalDollars, sumDollars, _, s₉, shrinkLiquid, shrinkDollars⟩ := run
  have balance (taken : Asset) (s t : ChainState) (u : Unit)
      (run : adjustBalance AccountName.null taken s = .ok u t) := gap_adjustBalance run
  have savingsBalance (taken : Asset) (s t : ChainState) (u : Unit)
      (run : adjustSavingsBalance AccountName.null taken s = .ok u t) :=
    gap_adjustSavingsBalance run
  have rewardBalance (taken : Asset) (s t : ChainState) (u : Unit)
      (run : adjustRewardBalance AccountName.null taken 0 s = .ok u t) :
      t.gap = s.gap - taken.value := by
    rw [gap_adjustRewardBalance run, rewardValue_zero]
  obtain ⟨liquidNonneg, gap₁⟩ := gap_burn balance burnLiquid
  obtain ⟨savingsNonneg, gap₂⟩ := gap_burn savingsBalance burnSavings
  obtain ⟨dollarsNonneg, gap₃⟩ := gap_burn balance burnDollars
  obtain ⟨savingsDollarsNonneg, gap₄⟩ := gap_burn savingsBalance burnSavingsDollars
  have gap₅ := gap_burnVestingShares burnVested
  obtain ⟨rewardLiquidNonneg, gap₆⟩ := gap_burn rewardBalance burnRewardLiquid
  obtain ⟨rewardDollarsNonneg, gap₇⟩ := gap_burn rewardBalance burnRewardDollars
  have gap₈ := gap_burnRewardShares burnRewardVested
  have liquidTotal := toInt_sumShares sumLiquid
  have dollarTotal := toInt_sumShares sumDollars
  simp only [List.map_cons, List.map_nil, List.sum_cons, List.sum_nil, add_zero]
    at liquidTotal dollarTotal
  refine ⟨totalLiquid.toInt - max totalLiquid.toInt 0, ?_, fun regular idle balanced => ?_⟩
  · rw [gap_shrinkSupply shrinkDollars, gap_shrinkSupply shrinkLiquid, gap₈, gap₇, gap₆, gap₅, gap₄,
      gap₃, gap₂, gap₁, max_eq_left (a := totalDollars.toInt) (by omega), dollarTotal, Pi.single_sub,
      liquidTotal]
    simp only [Asset.value, AssetSymbol.pool, Pi.single_add]
    abel
  · have regular₄ : s₄.Regular :=
      keeps burnSavingsDollars (keeps burnDollars (keeps burnSavings (keeps burnLiquid regular)))
    have idle₄ : s₄.Idle :=
      keeps burnSavingsDollars (keeps burnDollars (keeps burnSavings (keeps burnLiquid idle)))
    have idle₇ : s₇.Idle := keeps burnRewardDollars (keeps burnRewardLiquid (keeps burnVested idle₄))
    have balanced₄ : s₄.gap .shares = 0 := by
      rw [gap₄, gap₃, gap₂, gap₁]
      simp [Asset.value, AssetSymbol.pool, balanced]
    have vestedNonneg := burnVestingShares_nonneg regular₄ balanced₄ burnVested
    obtain ⟨rfl, _⟩ := burnRewardShares_idle idle₇ burnRewardVested
    have none_ : (0 : ShareType).toInt = 0 := rfl
    omega

end Burning

/-! ### Inflation -/

section Inflation

variable {s t : ChainState}

theorem lists_putRewardFund {fund old : RewardFund} {rest : List RewardFund}
    (run : putRewardFund fund s = .ok u t) (listed : s.rewardFunds.Lists (old :: rest))
    (same : fund.name = old.name) : t.rewardFunds.Lists rest := by
  obtain rfl := modify_eq_ok.mp run
  refine listed.tail fun k different => ?_
  rw [Table.find?_replace_of_ne]
  rw [same]
  exact different

theorem gap_payEachFund {reward used : ShareType} {funds : List RewardFund}
    (listed : s.rewardFunds.Lists funds) (run : payEachFund reward funds used s = .ok total t) :
    t.gap = s.gap - Pi.single Pool.liquid (total.toInt - used.toInt) := by
  induction funds generalizing s used with
  | nil =>
    obtain ⟨rfl, rfl⟩ := pure_eq_ok.mp run
    simp
  | cons fund rest inductionHypothesis =>
    simp only [payEachFund, bind_eq_ok, lift_eq_ok, require_eq_ok, ShareType.add_eq_ok, and_assoc,
      exists_and_left, exists_eq_left', exists_const] at run
    obtain ⟨share, _, balance, exactBalance, _, paid, put, used', exactUsed, _, run⟩ := run
    rw [inductionHypothesis (lists_putRewardFund put listed rfl) run,
      gap_putRewardFund put listed.head]
    simp only [RewardFund.held, Asset.value, AssetSymbol.pool, exactBalance, exactUsed,
      Pi.single_sub, Pi.single_add]
    abel

instance : Respects (Keeping ChainState.Idle) processFunds := by
  dsimp only [processFunds, payRewardFunds]
  repeat with_reducible refine .step inferInstance fun _ => ?_
  refine .step (idle_modifyDgp fun dgp => ?_) fun _ => inferInstance
  exact .bind fun _ => .bind fun _ => .bind fun _ => .pure rfl

/-- The supply grows by what the funds and the producer get. -/
instance : Respects (Same ChainState.gap) processFunds where
  related s _ t run := by
    simp only [processFunds, payRewardFunds, bind_eq_ok, discard_eq_ok, lift_eq_ok, get_eq_ok,
      ShareType.add_eq_ok, ShareType.sub_eq_ok, getWitness_eq_ok, and_assoc, exists_and_left,
      exists_eq_left'] at run
    obtain ⟨newLiquid, _, contentShare, _, content, paid, payment, vesting, _, rest, exactRest,
      witnessShare, exactWitness, witness, _, reward, _, paidOut, exactPaid, created, exactCreated,
      _, grown, grow, shares, vest⟩ := run
    obtain ⟨dgp, made, rfl⟩ := modifyDgp_eq_ok.mp grow
    simp only [except_bind_eq_ok, ShareType.add_eq_ok, except_pure_eq_ok] at made
    obtain ⟨fund, exactFund, supply, exactSupply, virtual, _, rfl⟩ := made
    have funded := gap_payEachFund (Table.lists_objects s.rewardFunds) payment
    change t.gap = s.gap
    rw [gap_createVesting vest, gap_setDgp, funded]
    funext pool
    cases pool <;> simp [DynamicGlobalProperties.issued, Asset.value, AssetSymbol.pool, exactFund,
      exactSupply, exactCreated, exactPaid]
    omega

end Inflation

/-! ### Conversions -/

section Conversions

variable {s t : ChainState}

theorem lists_eraseConvertRequest {request : ConvertRequest} {rest : List ConvertRequest}
    (run : eraseConvertRequest request s = .ok u t)
    (listed : s.convertRequests.Lists (request :: rest)) : t.convertRequests.Lists rest := by
  obtain rfl := modify_eq_ok.mp run
  exact listed.tail fun k different => Table.find?_erase_of_ne different

theorem dueConversions_listed (s : ChainState) : s.convertRequests.Lists s.dueConversions :=
  Table.lists_of_perm_filter (List.perm_insertionSort _ _)

/-- Requests are closed for the tokens issued to their owners. -/
theorem gap_convertEach {median : Price} {requests : List ConvertRequest} {nets totals : Asset × Asset}
    (listed : s.convertRequests.Lists requests)
    (run : convertEach median requests nets s = .ok totals t) :
    totals.1.symbol = nets.1.symbol ∧ totals.2.symbol = nets.2.symbol ∧
      t.gap = s.gap + (totals.1.value - nets.1.value) - (totals.2.value - nets.2.value) := by
  induction requests generalizing s nets with
  | nil =>
    obtain ⟨rfl, rfl⟩ := pure_eq_ok.mp run
    simp
  | cons request rest inductionHypothesis =>
    obtain ⟨netDollars, netLiquid⟩ := nets
    simp only [convertEach, bind_eq_ok, lift_eq_ok, and_assoc, exists_and_left,
      exists_eq_left'] at run
    obtain ⟨issue, _, _, paid, adjusted, dollars, addedDollars, liquid, addedLiquid, _, erased,
      erase, run⟩ := run
    rw [← keptField ChainState.convertRequests (fun _ => rfl) adjusted] at listed
    obtain ⟨first, second, changed⟩ :=
      inductionHypothesis (lists_eraseConvertRequest erase listed) run
    refine ⟨first.trans (Asset.symbol_add addedDollars),
      second.trans (Asset.symbol_add addedLiquid), ?_⟩
    rw [changed, gap_eraseConvertRequest erase listed.head, gap_adjustBalance adjusted,
      Asset.value_add addedDollars, Asset.value_add addedLiquid]
    abel

instance : Respects (Same ChainState.gap) processConversions where
  related s _ t run := by
    replace run := get_bind_eq_ok.mp run
    rcases whenever_eq_ok.mp run with ⟨_, converted⟩ | ⟨_, rfl⟩
    · obtain ⟨⟨netDollars, netLiquid⟩, middle, looped, booked⟩ := bind_eq_ok.mp converted
      obtain ⟨areDollars, isLiquid, changed⟩ := gap_convertEach (dueConversions_listed s) looped
      obtain ⟨dgp, made, rfl⟩ := modifyDgp_eq_ok.mp booked
      simp only [except_bind_eq_ok, ShareType.add_eq_ok, ShareType.sub_eq_ok,
        except_pure_eq_ok] at made
      obtain ⟨liquid, exactLiquid, dollars, exactDollars, _, _, _, _, _, _, _, _, rfl⟩ := made
      change ChainState.gap _ = _
      rw [gap_setDgp, changed, ← Asset.value_of_symbol areDollars, ← Asset.value_of_symbol isLiquid]
      funext pool
      cases pool <;> simp [DynamicGlobalProperties.issued, Asset.value, AssetSymbol.pool,
        exactLiquid, exactDollars]
    · rfl

/-- Without a price nothing is converted. -/
instance : Respects (Keeping ChainState.Idle) processConversions where
  related s _ t run idle := by
    replace run := get_bind_eq_ok.mp run
    rw [idle.unpriced, isNull_default] at run
    rcases whenever_eq_ok.mp run with ⟨priced, _⟩ | ⟨_, rfl⟩
    · cases priced
    · exact idle

end Conversions

end Zattera
