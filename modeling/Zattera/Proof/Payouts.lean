/-
This file keeps the books through the payout of comments. A reward too small for
a single vesting share leaves dust among the liquid tokens counted as owed in
shares, so in general only the dollars are shown to balance. While dollars have
no price no comment is worth anything, nothing is paid, and all of the books
stay as they were.
-/

import Zattera.Proof.Issuance

namespace Zattera

open Program Faceted

set_option synthInstance.maxSize 4096

/-! ### Dollars and vesting shares -/

/-- The dollars that have been issued but are held nowhere. -/
def ChainState.dollarGap (state : ChainState) : Int := state.gap .dollar

/-- The dollars and the vesting shares that have been issued but are held nowhere. -/
def ChainState.firmGap (state : ChainState) : Int × Int := (state.gap .dollar, state.gap .shares)

instance (priority := low) {α : Type} (x : Chain α) [books : Respects (Same ChainState.gap) x] :
    Respects (Same ChainState.firmGap) x :=
  books.mono fun _ _ same =>
    Prod.ext (congrFun same Pool.dollar) (congrFun same Pool.shares)

instance : Overlooks (Same ChainState.firmGap) OffBooks where
  holds same := by
    have books := Overlooks.holds (R := Same ChainState.gap) same
    exact Prod.ext (congrFun books Pool.dollar) (congrFun books Pool.shares)

instance (toAccount : AccountName) (tokens : ShareType) :
    Respects (Same ChainState.firmGap) (createRewardVesting toAccount ⟨tokens, .liquid⟩) where
  related s shares t run := by
    change (t.gap .dollar, t.gap .shares) = (s.gap .dollar, s.gap .shares)
    rw [gap_createRewardVesting run]
    split <;> simp [Asset.value, AssetSymbol.pool]

instance (toAccount : AccountName) (liquid : ShareType) (toRewardBalance : Bool) :
    Respects (Same ChainState.firmGap) (createDollar toAccount liquid toRewardBalance) where
  related s created t run := by
    change (t.gap .dollar, t.gap .shares) = (s.gap .dollar, s.gap .shares)
    rw [gap_createDollar run]
    simp [Asset.value, AssetSymbol.pool]

/-- Reward funds hold neither dollars nor vesting shares. -/
instance (fund : RewardFund) : Respects (Same ChainState.firmGap) (putRewardFund fund) := by
  refine .modify fun s => ?_
  have none_ (pool : Pool) (other : pool ≠ .liquid)
      (funds : Table AccountName RewardFund RewardFund.name) :
      funds.total (fun fund => fund.held pool) = 0 :=
    Table.total_eq_zero fun fund _ => by
      simp [RewardFund.held, Asset.value, AssetSymbol.pool, other]
  change ChainState.firmGap _ = _
  simp only [ChainState.firmGap, ChainState.gap, ChainState.held, Pi.sub_apply, Pi.add_apply,
    Table.total_apply, none_ .dollar (by decide), none_ .shares (by decide)]

/-! ### Without a price -/

section Unpriced

variable {s t : ChainState}

/-- The unsigned limit of nothing. -/
theorem limit_zero (worth : ShareType) :
    (if worth.toUInt64 ≤ (0 : ShareType).toUInt64 then worth else 0) = 0 := by
  split
  · next small =>
    have zero : worth.toUInt64 = 0 := UInt64.le_antisymm small (UInt64.zero_le)
    exact congrArg Int64.ofUInt64 zero
  · rfl

/-- Without a price no comment is worth anything. -/
theorem getRshareReward_unpriced {ctx : CommentRewardContext} {reward : ShareType}
    (unpriced : ctx.currentLiquidPrice = default) (made : getRshareReward ctx = .ok reward) :
    reward = 0 := by
  simp only [getRshareReward, toLiquid, unpriced, isNull_default, if_true, except_bind_eq_ok,
    except_pure_eq_ok] at made
  obtain ⟨_, _, _, _, payout, _, dust, _, limit, ⟨_, _, rfl⟩, rfl⟩ := made
  exact limit_zero _

theorem claimReward_unpriced {comment : Comment} {fund : RewardFund} {recentClaims : UInt128}
    {rewardBalance claimed : ShareType}
    (unpriced : s.feedHistory.currentMedianHistory = default)
    (run : claimReward comment fund recentClaims rewardBalance s = .ok claimed t) :
    claimed = 0 ∧ t = s := by
  unfold claimReward at run
  split at run
  · simp only [bind_eq_ok, get_eq_ok, lift_eq_ok, and_assoc, exists_and_left,
      exists_eq_left'] at run
    obtain ⟨reward, computed, run⟩ := run
    rw [if_neg (not_not.mpr (getRshareReward_unpriced unpriced computed))] at run
    obtain ⟨rfl, rfl⟩ := pure_eq_ok.mp run
    exact ⟨rfl, rfl⟩
  · obtain ⟨rfl, rfl⟩ := pure_eq_ok.mp run
    exact ⟨rfl, rfl⟩

instance (comment : Comment) (fund : RewardFund) (recentClaims : UInt128)
    (rewardBalance : ShareType) :
    Respects (Keeping ChainState.Idle) (claimReward comment fund recentClaims rewardBalance) where
  related s claimed t run idle := by
    obtain ⟨_, rfl⟩ := claimReward_unpriced idle.unpriced run
    exact idle

/-- What is shown of a chain without a price: its books and its median. -/
def ChainState.priced (state : ChainState) : (Pool → Int) × Price :=
  (state.gap, state.feedHistory.currentMedianHistory)

theorem cashoutCommentHelper_unpriced {recentClaims : UInt128} {rewardBalance claimed : ShareType}
    {key : AccountName × Text} (unpriced : s.feedHistory.currentMedianHistory = default)
    (run : cashoutCommentHelper recentClaims rewardBalance key s = .ok claimed t) :
    claimed = 0 ∧ t.priced = s.priced := by
  simp only [cashoutCommentHelper, bind_eq_ok, get_eq_ok, lookup_eq_ok, headBlockTime_eq_ok,
    pure_eq_ok, modify_eq_ok, and_assoc, exists_and_left, exists_eq_left'] at run
  obtain ⟨comment, _, fund, _, reward, middle, claiming, paid, _, _, marked, put, rfl, _, rfl⟩ := run
  obtain ⟨none_, rfl⟩ := claimReward_unpriced unpriced claiming
  obtain rfl := modify_eq_ok.mp put
  exact ⟨none_, rfl⟩

/-- Comments that are due are closed without a reward. -/
theorem cashoutEach_unpriced {recentClaims : UInt128} {rewardBalance awarded total : ShareType}
    {comments : List Comment} (unpriced : s.feedHistory.currentMedianHistory = default)
    (run : cashoutEach recentClaims rewardBalance comments awarded s = .ok total t) :
    total.toInt = awarded.toInt ∧ t.priced = s.priced := by
  induction comments generalizing s awarded with
  | nil =>
    obtain ⟨rfl, rfl⟩ := pure_eq_ok.mp run
    exact ⟨rfl, rfl⟩
  | cons comment rest inductionHypothesis =>
    simp only [cashoutEach, bind_eq_ok, lift_eq_ok, ShareType.add_eq_ok, and_assoc, exists_and_left,
      exists_eq_left'] at run
    obtain ⟨claimed, middle, closed, sum, exact_, run⟩ := run
    obtain ⟨rfl, same⟩ := cashoutCommentHelper_unpriced unpriced closed
    obtain ⟨total, rest⟩ := inductionHypothesis ((congrArg Prod.snd same).trans unpriced) run
    refine ⟨?_, rest.trans same⟩
    rw [total, exact_, Int64.toInt_zero, add_zero]

/-- The decay of claims leaves the balances of all funds as they are. -/
theorem decayEach {now : TimePointSec} {u : PUnit}
    (run : forM s.rewardFunds.objects (fun fund => putRewardFund (fund.decayed now)) s = .ok u t) :
    t.priced = s.priced := by
  refine forM_listed (R := Same ChainState.priced) ChainState.rewardFunds
    (fun fund before after _ found turned => ?_) (Table.lists_objects _) run
  have same : after.gap = before.gap :=
    (gap_putRewardFund turned found).trans (add_sub_cancel_right _ fund.held)
  obtain rfl := modify_eq_ok.mp turned
  refine ⟨congrArg (·, _) same, fun k different => ?_⟩
  rw [Table.find?_replace_of_ne]
  exact different

theorem gap_processCommentCashout {u : Unit}
    (unpriced : s.feedHistory.currentMedianHistory = default)
    (run : processCommentCashout s = .ok u t) : t.gap = s.gap := by
  simp only [processCommentCashout, bind_eq_ok, get_eq_ok, headBlockTime_eq_ok, and_assoc,
    exists_and_left, exists_eq_left'] at run
  obtain ⟨_, decayed, decay, run⟩ := run
  obtain ⟨decaying, sameMedian⟩ := Prod.mk.injEq .. ▸ decayEach decay
  rw [← sameMedian] at unpriced
  rw [← decaying]
  rcases whenever_eq_ok.mp run with ⟨_, run⟩ | ⟨_, rfl⟩
  · simp only [bind_eq_ok, get_eq_ok, lookup_eq_ok, lift_eq_ok, ShareType.sub_eq_ok, and_assoc,
      exists_and_left, exists_eq_left'] at run
    obtain ⟨fund, found, claims, _, awarded, closed, closing, again, foundAgain, balance, exact_,
      put⟩ := run
    obtain ⟨nothing, same⟩ := cashoutEach_unpriced unpriced closing
    have kept : closed.gap = decayed.gap := congrArg Prod.fst same
    have name := Table.key_of_find? foundAgain
    change closed.rewardFunds.find? _ = _ at foundAgain
    rw [← name] at foundAgain
    rw [gap_putRewardFund put foundAgain, kept, RewardFund.held, RewardFund.held,
      Asset.value, Asset.value, exact_, nothing, Int64.toInt_zero, sub_zero, add_sub_cancel_right]
  · rfl

end Unpriced

end Zattera
