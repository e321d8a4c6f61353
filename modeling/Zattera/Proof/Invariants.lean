/-
This file states the invariants that the books rest on. Nothing that is parked in
orders, escrows and requests is vesting shares, and shares and withdrawals are not
negative; and as long as dollars have no price, there are no dollars and nobody is
owed anything. Both are kept by every validated operation: what it parks is no
vesting shares because its validation, or a check it makes on the way, excludes it.
-/

import Zattera.Proof.Conservation

namespace Zattera

open Program Faceted

set_option synthInstance.maxSize 4096

variable {order : LimitOrder} {owner : AccountName} {orderid : Nat}

/-! ### The invariants -/

/-- What an account is owed in vesting shares, and the liquid tokens behind them. -/
def Account.owed (account : Account) : ShareType × ShareType :=
  (account.rewardVestingShareBalance, account.rewardVestingLiquidBalance)

/-- Shares and withdrawals of an account are not negative. -/
structure Account.Sound (account : Account) : Prop where
  shares : 0 ≤ account.vestingShareBalance.toInt
  rate : 0 ≤ account.vestingWithdrawRate.toInt
  asked : 0 ≤ account.toWithdraw.toInt

/-- All accounts are sound, and no route takes more than a whole withdrawal. -/
structure ChainState.Sound (state : ChainState) : Prop where
  accounts : ∀ account ∈ state.accounts, account.Sound
  routes : ∀ route ∈ state.withdrawRoutes, route.percent ≤ 10000

def LimitOrder.Tradable (order : LimitOrder) : Prop :=
  order.sellPrice.base.symbol ≠ .vests ∧ order.sellPrice.quote.symbol ≠ .vests

/-- Nothing parked is in vesting shares, and the fees of approved escrows are paid. -/
structure ChainState.WellKept (state : ChainState) : Prop where
  orders : ∀ order ∈ state.limitOrders, order.Tradable
  escrows : ∀ escrow ∈ state.escrows, escrow.Kept
  withdraws : ∀ withdraw ∈ state.savingsWithdraws, withdraw.amount.symbol ≠ .vests
  requests : ∀ request ∈ state.convertRequests, request.amount.symbol ≠ .vests

/-- What is parked is well kept, and accounts are sound. -/
structure ChainState.Regular (state : ChainState) : Prop where
  kept : state.WellKept
  sound : state.Sound

/-- There is no price, there are no dollars, and nothing is owed. -/
structure ChainState.Idle (state : ChainState) : Prop where
  unpriced : state.feedHistory.currentMedianHistory = default
  dollarless : state.dgp.currentDollarSupply = 0
  unowed : ∀ account ∈ state.accounts, account.owed = (0, 0)

instance (priority := low) {α : Type} (x : Chain α) [kept : Respects (Keeping ChainState.WellKept) x]
    [sound : Respects (Keeping ChainState.Sound) x] : Respects (Keeping ChainState.Regular) x where
  related s a t run regular :=
    ⟨kept.related s a t run regular.kept, sound.related s a t run regular.sound⟩

instance : Overlooks (Keeping ChainState.WellKept) (Covered (.accounts :: .dgp :: .feedHistory ::
    .withdrawRoutes :: .rewardFunds :: Part.records)) where
  holds {s t} same kept := by
    have orders : t.limitOrders = s.limitOrders := same (.part .limitOrders) (by decide)
    have escrows : t.escrows = s.escrows := same (.part .escrows) (by decide)
    have withdraws : t.savingsWithdraws = s.savingsWithdraws :=
      same (.part .savingsWithdraws) (by decide)
    have requests : t.convertRequests = s.convertRequests := same (.part .convertRequests) (by decide)
    exact ⟨orders ▸ kept.orders, escrows ▸ kept.escrows, withdraws ▸ kept.withdraws,
      requests ▸ kept.requests⟩

instance : Overlooks (Keeping ChainState.Sound)
    (Either (Covered (.dgp :: .feedHistory :: .limitOrders :: .escrows :: .savingsWithdraws ::
        .convertRequests :: .rewardFunds :: Part.records))
      (Among [.part .accounts, .names, .account .liquid, .account .savings, .account .dollars,
        .account .savingsDollars, .account .rewards, .account .owed, .account .proxied,
        .account .proxy, .account .requests, .account .ballots, .account .delegated,
        .account .received, .account .power, .account .record])) where
  holds {s t} same sound := by
    have routes : t.withdrawRoutes = s.withdrawRoutes := same (.part .withdrawRoutes) (by decide)
    refine ⟨?_, routes ▸ sound.routes⟩
    refine Table.forall_mem_of_facetOf [.shares, .withdrawal] (fun account => ?_)
      ⟨le_rfl, le_rfl, le_rfl⟩ (same.accounts (by decide)) sound.accounts
    exact ⟨fun ⟨shares, rate, asked⟩ => ⟨shares, rate, asked⟩,
      fun ⟨shares, rate, asked⟩ => ⟨shares, rate, asked⟩⟩

instance : Overlooks (Keeping ChainState.Idle)
    (Either (Covered (.limitOrders :: .escrows :: .savingsWithdraws :: .convertRequests ::
        .withdrawRoutes :: .rewardFunds :: Part.records))
      (Among [.part .accounts, .names, .account .liquid, .account .savings, .account .dollars,
        .account .savingsDollars, .account .rewards, .account .shares, .account .withdrawal,
        .account .proxied, .account .proxy, .account .requests, .account .ballots,
        .account .delegated, .account .received, .account .power, .account .record, .part .dgp,
        .global .head, .global .irreversible, .global .producer, .global .slots, .global .virtual,
        .global .fund, .global .pending, .global .rates])) where
  holds {s t} same idle := by
    have feed : t.feedHistory = s.feedHistory := same (.part .feedHistory) (by decide)
    have supply : only .supply t.dgp = only .supply s.dgp := same (.global .supply) (by decide)
    have dollars : t.dgp.currentDollarSupply = s.dgp.currentDollarSupply :=
      (congrArg DynamicGlobalProperties.currentDollarSupply supply :)
    exact ⟨feed ▸ idle.unpriced, dollars.trans idle.dollarless,
      Table.forall_mem_of_facetOf [.owed] (fun _ => Iff.rfl) rfl (same.accounts (by decide))
        idle.unowed⟩

/-! ### Accounts stay sound -/

theorem sound_modifyAccount {name : AccountName} {change : Account → Except ChainError Account}
    (sound : ∀ account changed, change account = .ok changed → account.Sound → changed.Sound) :
    Respects (Keeping ChainState.Sound) (modifyAccount name change) := by
  refine respects_modifyAccount fun s account changed found made before => ?_
  have stored := before.accounts account (Table.mem_of_find? found)
  exact ⟨Table.forall_mem_replace before.accounts (sound account changed made stored), before.routes⟩

theorem sound_updateAccount {name : AccountName} {change : Account → Account}
    (sound : ∀ account : Account, account.Sound → (change account).Sound) :
    Respects (Keeping ChainState.Sound) (updateAccount name change) := by
  refine sound_modifyAccount fun account changed made => ?_
  cases made
  exact sound account

/-- A balance that is checked not to be negative, of whichever token. -/
instance (name : AccountName) (delta : Asset) :
    Respects (Keeping ChainState.Sound) (adjustBalance name delta) := by
  by_cases vests : delta.symbol = .vests
  · refine ⟨fun s _ t run sound => ?_⟩
    obtain ⟨account, _, read, modified⟩ := bind_eq_ok.mp run
    obtain ⟨found, rfl⟩ := getAccount_eq_ok.mp read
    simp only [modifyBalance, vests, bind_eq_ok, lift_eq_ok, addBalance_eq_ok] at modified
    obtain ⟨balance, _, ⟨⟨_, nonneg⟩, rfl⟩, put⟩ := modified
    obtain rfl := modify_eq_ok.mp put
    obtain ⟨_, rate, asked⟩ := sound.accounts account (Table.mem_of_find? found)
    exact ⟨Table.forall_mem_replace sound.accounts
      ⟨Int64.le_iff_toInt_le.mp nonneg, rate, asked⟩, sound.routes⟩
  · exact overlooked_adjustBalance fun isVests => absurd isVests vests

theorem newWithdrawRate_nonneg {shares rate : ShareType} (nonneg : 0 ≤ shares.toInt)
    (made : newWithdrawRate shares = .ok rate) : 0 ≤ rate.toInt := by
  simp only [newWithdrawRate, except_bind_eq_ok, ShareType.div_eq_ok, except_pure_eq_ok] at made
  obtain ⟨quotient, ⟨_, exact_⟩, rfl⟩ := made
  split
  · decide
  · rw [exact_]
    exact Int.tdiv_nonneg nonneg (by decide)

instance (o : WithdrawVestingOperation) :
    Respects (Keeping ChainState.Sound) (withdrawVestingEvaluator o) := by
  have changed {rate shares : ShareType} (next : TimePointSec) (rateNonneg : 0 ≤ rate.toInt)
      (nonneg : 0 ≤ shares.toInt) :
      Respects (Keeping ChainState.Sound) (updateAccount o.account fun account => { account with
        vestingWithdrawRate := rate
        nextVestingWithdrawal := next
        toWithdraw := shares
        withdrawn := 0 }) :=
    sound_updateAccount fun _ sound => ⟨sound.shares, rateNonneg, nonneg⟩
  dsimp only [withdrawVestingEvaluator]
  refine .step inferInstance fun _ => .checked fun nonneg => ?_
  rw [Int64.le_iff_toInt_le] at nonneg
  iterate 3 refine .step inferInstance fun _ => ?_
  refine @Respects.ite _ _ _ _ _ _ _ _ (.step inferInstance fun _ => changed _ le_rfl le_rfl) ?_
  refine .computed fun rate made => ?_
  iterate 2 refine .step inferInstance fun _ => ?_
  exact changed _ (newWithdrawRate_nonneg nonneg made) nonneg

theorem sound_setWithdrawVestingRoute {o : SetWithdrawVestingRouteOperation}
    (valid : o.validate = .ok ()) :
    Respects (Keeping ChainState.Sound) (setWithdrawVestingRouteEvaluator o) := by
  simp only [SetWithdrawVestingRouteOperation.validate, except_bind_eq_ok, ensure_eq_ok] at valid
  obtain ⟨_, _, _, _, small⟩ := valid
  have counted (count : Account → Nat) : Respects (Keeping ChainState.Sound)
      (updateAccount o.fromAccount fun account =>
        { account with withdrawRoutes := count account }) :=
    overlooked_updateAccount [.record] fun _ => rfl
  have stored (account : Account) :
      Respects (Keeping ChainState.Sound) (storeWithdrawRoute o account) := by
    dsimp only [storeWithdrawRoute]
    refine .step inferInstance fun _ => ?_
    split
    · iterate 2 refine .step inferInstance fun _ => ?_
      exact .step (respects_create fun _ _ added sound =>
        ⟨sound.accounts, Table.forall_mem_insert? sound.routes added small⟩) fun _ => inferInstance
    · exact @Respects.ite _ _ _ _ _ _ _ _
        (.step (.modify fun _ sound => ⟨sound.accounts, Table.forall_mem_erase sound.routes _⟩)
          fun _ => inferInstance)
        (.modify fun _ sound => ⟨sound.accounts, Table.forall_mem_replace sound.routes small⟩)
  dsimp only [setWithdrawVestingRouteEvaluator]
  infer_instance

/-! ### What is parked is well kept -/

section Parked

variable {s t : ChainState}

theorem wellKept_insertSavingsWithdraw {withdraw : SavingsWithdraw}
    (circulating : withdraw.amount.symbol ≠ .vests) :
    Respects (Keeping ChainState.WellKept) (insertSavingsWithdraw withdraw) :=
  respects_create fun _ _ isNew kept => { kept with
    withdraws := Table.forall_mem_insert? kept.withdraws isNew circulating }

theorem wellKept_insertConvertRequest {request : ConvertRequest}
    (circulating : request.amount.symbol ≠ .vests) :
    Respects (Keeping ChainState.WellKept) (insertConvertRequest request) :=
  respects_create fun _ _ isNew kept => { kept with
    requests := Table.forall_mem_insert? kept.requests isNew circulating }

theorem wellKept_insertEscrow {escrow : Escrow} (good : escrow.Kept) :
    Respects (Keeping ChainState.WellKept) (insertEscrow escrow) :=
  respects_create fun _ _ isNew kept => { kept with
    escrows := Table.forall_mem_insert? kept.escrows isNew good }

theorem wellKept_putEscrow {escrow : Escrow} (good : escrow.Kept) :
    Respects (Keeping ChainState.WellKept) (putEscrow escrow) :=
  .modify fun _ kept => { kept with
    escrows := Table.forall_mem_replace kept.escrows good }

theorem wellKept_insertLimitOrder (good : order.Tradable) :
    Respects (Keeping ChainState.WellKept) (insertLimitOrder order) :=
  respects_create fun _ _ isNew kept => { kept with
    orders := Table.forall_mem_insert? kept.orders isNew good }

theorem wellKept_putLimitOrder (good : order.Tradable) :
    Respects (Keeping ChainState.WellKept) (putLimitOrder order) :=
  .modify fun _ kept => { kept with
    orders := Table.forall_mem_replace kept.orders good }

instance (account : AccountName) (requestId : Nat) :
    Respects (Keeping ChainState.WellKept) (eraseSavingsWithdraw account requestId) :=
  .modify fun _ kept => { kept with
    withdraws := Table.forall_mem_erase kept.withdraws _ }

instance (request : ConvertRequest) :
    Respects (Keeping ChainState.WellKept) (eraseConvertRequest request) :=
  .modify fun _ kept => { kept with
    requests := Table.forall_mem_erase kept.requests _ }

instance (escrow : Escrow) : Respects (Keeping ChainState.WellKept) (eraseEscrow escrow) :=
  .modify fun _ kept => { kept with
    escrows := Table.forall_mem_erase kept.escrows _ }

instance (order : LimitOrder) : Respects (Keeping ChainState.WellKept) (eraseLimitOrder order) :=
  .modify fun _ kept => { kept with
    orders := Table.forall_mem_erase kept.orders _ }

/-- What follows the lookup of an escrow may rely on its being well kept. -/
theorem wellKept_getEscrow {β : Type} {account : AccountName} {escrowId : Nat} {f : Escrow → Chain β}
    (rest : ∀ escrow, escrow.Kept → Respects (Keeping ChainState.WellKept) (f escrow)) :
    Respects (Keeping ChainState.WellKept) (getEscrow account escrowId >>= f) where
  related s b t run kept := by
    obtain ⟨escrow, _, read, finished⟩ := bind_eq_ok.mp run
    obtain ⟨found, rfl⟩ := getEscrow_eq_ok.mp read
    have good := kept.escrows escrow (Table.mem_of_find? found)
    exact (rest escrow good).related s b t finished kept

theorem wellKept_getLimitOrder {β : Type} {f : LimitOrder → Chain β}
    (rest : ∀ order, order.Tradable → Respects (Keeping ChainState.WellKept) (f order)) :
    Respects (Keeping ChainState.WellKept) (getLimitOrder owner orderid >>= f) where
  related s b t run kept := by
    obtain ⟨order, _, read, finished⟩ := bind_eq_ok.mp run
    obtain ⟨found, rfl⟩ := getLimitOrder_eq_ok.mp read
    have good := kept.orders order (Table.mem_of_find? found)
    exact (rest order good).related s b t finished kept

end Parked

/-! ### Savings, conversions and escrows -/

theorem circulating_of_or {asset : Asset}
    (known : asset.symbol = .liquid ∨ asset.symbol = .dollar) : asset.symbol ≠ .vests := by
  rcases known with isLiquid | isDollar
  · rw [isLiquid]
    decide
  · rw [isDollar]
    decide

theorem wellKept_transferFromSavings {op : TransferFromSavingsOperation}
    (valid : op.validate = .ok ()) :
    Respects (Keeping ChainState.WellKept) (transferFromSavingsEvaluator op) := by
  simp only [TransferFromSavingsOperation.validate, validateSavingsAmount, except_bind_eq_ok,
    ensure_eq_ok] at valid
  obtain ⟨_, _, _, _, _, ⟨_, _, known⟩, _⟩ := valid
  have parked (complete : TimePointSec) : Respects (Keeping ChainState.WellKept)
      (insertSavingsWithdraw ⟨op.fromAccount, op.toAccount, op.requestId, op.amount, complete⟩) :=
    wellKept_insertSavingsWithdraw (circulating_of_or known)
  dsimp only [transferFromSavingsEvaluator]
  infer_instance

theorem wellKept_convert {o : ConvertOperation} (valid : o.validate = .ok ()) :
    Respects (Keeping ChainState.WellKept) (convertEvaluator o) := by
  simp only [ConvertOperation.validate, except_bind_eq_ok, ensure_eq_ok, isAssetType,
    decide_eq_true_eq] at valid
  obtain ⟨_, _, _, isDollar, _⟩ := valid
  have parked (date : TimePointSec) : Respects (Keeping ChainState.WellKept)
      (insertConvertRequest ⟨o.owner, o.requestid, o.amount, date⟩) :=
    wellKept_insertConvertRequest (circulating_of_or (.inr isDollar))
  dsimp only [convertEvaluator]
  infer_instance

theorem wellKept_escrowTransfer {o : EscrowTransferOperation} (valid : o.validate = .ok ()) :
    Respects (Keeping ChainState.WellKept) (escrowTransferEvaluator o) := by
  simp only [EscrowTransferOperation.validate, except_bind_eq_ok, ensure_eq_ok] at valid
  obtain ⟨_, _, _, _, _, _, _, _, _, _, _, _, _, _, _, _, _, known, _⟩ := valid
  dsimp only [escrowTransferEvaluator]
  repeat with_reducible refine .step inferInstance fun _ => ?_
  refine wellKept_insertEscrow ⟨circulating_of_or known, fun approved => ?_⟩
  cases approved

/-- When both sides have approved, the fee is paid before anybody looks at the escrow again. -/
theorem wellKept_ratify {agent : AccountName} {approved : Escrow}
    (circulating : approved.pendingFee.symbol ≠ .vests) :
    Respects (Keeping ChainState.WellKept) (putEscrow approved >>= fun _ =>
      adjustBalance agent approved.pendingFee >>= fun _ =>
        putEscrow { approved with pendingFee := ⟨0, approved.pendingFee.symbol⟩ }) where
  related s _ t run kept := by
    obtain ⟨_, stored, put, run⟩ := bind_eq_ok.mp run
    obtain ⟨_, paid, moved, cleared⟩ := bind_eq_ok.mp run
    have within : Within [.accounts, .dgp] stored paid := Respects.related _ _ _ moved
    have orders : paid.limitOrders = stored.limitOrders := within .limitOrders (by decide)
    have escrows : paid.escrows = stored.escrows := within .escrows (by decide)
    have withdraws : paid.savingsWithdraws = stored.savingsWithdraws :=
      within .savingsWithdraws (by decide)
    have requests : paid.convertRequests = stored.convertRequests :=
      within .convertRequests (by decide)
    obtain rfl := modify_eq_ok.mp put
    obtain rfl := modify_eq_ok.mp cleared
    refine ⟨orders ▸ kept.orders, fun other member => ?_, withdraws ▸ kept.withdraws,
      requests ▸ kept.requests⟩
    rcases Table.mem_replace.mp member with ⟨earlier, different⟩ | ⟨rfl, _⟩
    · rw [escrows] at earlier
      rcases Table.mem_replace.mp earlier with ⟨old, _⟩ | ⟨rfl, _⟩
      · exact kept.escrows other old
      · exact absurd rfl different
    · exact ⟨circulating, fun _ => rfl⟩

instance (o : EscrowApproveOperation) :
    Respects (Keeping ChainState.WellKept) (escrowApproveEvaluator o) := by
  dsimp only [escrowApproveEvaluator]
  refine wellKept_getEscrow fun escrow good => ?_
  iterate 3 refine .step inferInstance fun _ => ?_
  refine .computed fun approved made => ?_
  obtain ⟨toApproved, agentApproved, changed, unchanged⟩ := Escrow.approvedBy_eq_ok made
  have circulating : approved.pendingFee.symbol ≠ .vests := by
    rw [changed]
    exact good.1
  split
  · next rejected =>
    refine .step (wellKept_putEscrow ?_) fun _ => inferInstance
    rw [unchanged rejected]
    exact good
  · unfold whenever
    split
    · exact wellKept_ratify circulating
    · next unapproved =>
      exact .step (wellKept_putEscrow ⟨circulating, fun both => absurd both unapproved⟩) fun _ =>
        inferInstance

instance (o : EscrowDisputeOperation) :
    Respects (Keeping ChainState.WellKept) (escrowDisputeEvaluator o) := by
  dsimp only [escrowDisputeEvaluator]
  refine .step inferInstance fun _ => wellKept_getEscrow fun escrow good => ?_
  repeat with_reducible refine .step inferInstance fun _ => ?_
  exact wellKept_putEscrow good

instance (o : EscrowReleaseOperation) :
    Respects (Keeping ChainState.WellKept) (escrowReleaseEvaluator o) := by
  dsimp only [escrowReleaseEvaluator]
  refine .step inferInstance fun _ => wellKept_getEscrow fun escrow good => ?_
  repeat with_reducible refine .step inferInstance fun _ => ?_
  exact .step (wellKept_putEscrow good) fun _ => inferInstance

/-! ### The market -/

theorem wellKept_fillOrder {pays receives : Asset} (good : order.Tradable) :
    Respects (Keeping ChainState.WellKept) (fillOrder order pays receives) := by
  dsimp only [fillOrder]
  iterate 3 refine .step inferInstance fun _ => ?_
  refine @Respects.ite _ _ _ _ _ _ _ _ inferInstance ?_
  iterate 2 refine .step inferInstance fun _ => ?_
  exact .step (wellKept_putLimitOrder good) fun _ => inferInstance

theorem wellKept_matchWithEach {orders : List LimitOrder} (good : ∀ order ∈ orders, order.Tradable) :
    Respects (Keeping ChainState.WellKept) (matchWithEach owner orderid orders) := by
  induction orders with
  | nil => exact Respects.pure _
  | cons oldOrder rest inductionHypothesis =>
    have further := inductionHypothesis fun order member =>
      good order (List.mem_cons_of_mem oldOrder member)
    have fillOld (pays receives : Asset) :
        Respects (Keeping ChainState.WellKept) (fillOrder oldOrder pays receives) :=
      wellKept_fillOrder (good oldOrder List.mem_cons_self)
    refine wellKept_getLimitOrder fun newOrder goodNew => ?_
    have fillNew (pays receives : Asset) :
        Respects (Keeping ChainState.WellKept) (fillOrder newOrder pays receives) :=
      wellKept_fillOrder goodNew
    dsimp only [matchOrders]
    infer_instance

instance (order : LimitOrder) : Respects (Keeping ChainState.WellKept) (applyOrder order) := by
  dsimp only [applyOrder]
  refine .step inferInstance fun _ => .step inferInstance fun _ => ?_
  refine .seen fun s kept => .step (wellKept_matchWithEach fun other member => ?_) fun _ =>
    inferInstance
  exact kept.orders other (List.mem_of_mem_filter ((List.mem_insertionSort _).mp member))

theorem wellKept_createLimitOrder {amountToSell : Asset} {sellPrice : Except ChainError Price}
    {fillOrKill : Bool} {expiration : TimePointSec} (good : ∀ price, sellPrice = .ok price →
      price.base.symbol ≠ .vests ∧ price.quote.symbol ≠ .vests) :
    Respects (Keeping ChainState.WellKept)
      (createLimitOrder owner orderid amountToSell sellPrice fillOrKill expiration) := by
  dsimp only [createLimitOrder]
  iterate 4 refine .step inferInstance fun _ => ?_
  refine .computed fun price made => ?_
  exact .step (wellKept_insertLimitOrder (good price made)) fun _ => inferInstance

theorem circulating_of_isMarket {sell receive : AssetSymbol} (market : isMarket sell receive) :
    sell ≠ .vests ∧ receive ≠ .vests := by
  unfold isMarket at market
  rw [decide_eq_true_eq] at market
  rcases market with ⟨rfl, rfl⟩ | ⟨rfl, rfl⟩ <;> decide

theorem wellKept_limitOrderCreate {o : LimitOrderCreateOperation} (valid : o.validate = .ok ()) :
    Respects (Keeping ChainState.WellKept) (limitOrderCreateEvaluator o) := by
  simp only [LimitOrderCreateOperation.validate, except_bind_eq_ok, ensure_eq_ok] at valid
  obtain ⟨_, _, _, market, _⟩ := valid
  refine wellKept_createLimitOrder fun price made => ?_
  simp only [Price.ofAssets, except_bind_eq_ok, Price.make_eq_ok] at made
  obtain ⟨_, _, rfl, _⟩ := made
  exact circulating_of_isMarket market

theorem wellKept_limitOrderCreate2 {o : LimitOrderCreate2Operation} (valid : o.validate = .ok ()) :
    Respects (Keeping ChainState.WellKept) (limitOrderCreate2Evaluator o) := by
  simp only [LimitOrderCreate2Operation.validate, except_bind_eq_ok, ensure_eq_ok] at valid
  obtain ⟨_, _, _, same, _, _, _, market, _⟩ := valid
  obtain ⟨sells, receives⟩ := circulating_of_isMarket market
  refine wellKept_createLimitOrder fun price made => ?_
  cases made
  exact ⟨same ▸ sells, receives⟩

/-! ### Without a price -/

/-- A dollar has no value without a price. -/
theorem mulPrice_default {amount : ShareType} {value : Asset} :
    (Asset.mk amount .dollar).mulPrice default ≠ .ok value := by
  intro made
  rcases Asset.symbol_mulPrice made with ⟨onBase, _⟩ | ⟨onQuote, _⟩
  · cases onBase
  · cases onQuote

theorem isNull_default : (default : Price).isNull = true := by decide

theorem idle_modifyDgp
    {change : DynamicGlobalProperties → Except ChainError DynamicGlobalProperties}
    (same : ∀ dgp, Ensures (fun changed => changed.currentDollarSupply = dgp.currentDollarSupply)
      (change dgp)) : Respects (Keeping ChainState.Idle) (modifyDgp change) :=
  respects_modifyDgp fun s dgp made idle =>
    ⟨idle.unpriced, (same s.dgp dgp made).trans idle.dollarless, idle.unowed⟩

instance (interestPaid : ShareType) :
    Respects (Keeping ChainState.Idle) (issueInterest interestPaid) where
  related s _ t run idle := by
    simp only [issueInterest, bind_eq_ok, get_eq_ok, modifyDgp_eq_ok, except_bind_eq_ok] at run
    obtain ⟨_, _, ⟨rfl, rfl⟩, _, ⟨_, _, value, valued, _⟩, _⟩ := run
    rw [idle.unpriced] at valued
    exact absurd valued mulPrice_default

instance (delta : Asset) : Respects (Keeping ChainState.Idle) (adjustSupply delta false) where
  related s _ t run idle := by
    have modified := get_bind_eq_ok.mp run
    obtain ⟨dgp, made, rfl⟩ := modifyDgp_eq_ok.mp modified
    obtain ⟨amount, symbol⟩ := delta
    cases symbol with
    | liquid =>
      simp only [except_bind_eq_ok, except_pure_eq_ok] at made
      obtain ⟨_, _, _, _, _, _, _, _, _, _, _, _, rfl⟩ := made
      exact ⟨idle.unpriced, idle.dollarless, idle.unowed⟩
    | dollar =>
      simp only [except_bind_eq_ok] at made
      obtain ⟨_, _, value, valued, _⟩ := made
      rw [idle.unpriced] at valued
      exact absurd valued mulPrice_default
    | vests => simp at made

/-! ### Claims -/

/-- Where nothing is owed, there is nothing to claim. -/
theorem nothing_to_claim {account : Account} {shares liquid : ShareType}
    (unowed : account.owed = (0, 0)) (nonneg : 0 ≤ shares.toInt)
    (enough : shares.toInt ≤ account.rewardVestingShareBalance.toInt)
    (moved : account.rewardLiquidToMove shares = .ok liquid) : shares = 0 ∧ liquid = 0 := by
  obtain ⟨noShares, noLiquid⟩ := Prod.mk.injEq .. ▸ unowed
  rw [noShares] at enough
  have zero : shares = 0 := Int64.toInt_inj.mp (le_antisymm enough nonneg)
  rw [Account.rewardLiquidToMove, zero, noShares, if_pos rfl, noLiquid] at moved
  cases moved
  exact ⟨zero, rfl⟩

theorem sound_claimRewardBalance {op : ClaimRewardBalanceOperation} (valid : op.validate = .ok ()) :
    Respects (Keeping ChainState.Sound) (claimRewardBalanceEvaluator op) := by
  simp only [ClaimRewardBalanceOperation.validate, except_bind_eq_ok, ensure_eq_ok] at valid
  obtain ⟨_, _, _, _, _, _, _, _, _, _, _, _, _, nonneg, _⟩ := valid
  rw [Int64.le_iff_toInt_le] at nonneg
  dsimp only [claimRewardBalanceEvaluator]
  repeat with_reducible refine .step inferInstance fun _ => ?_
  refine .step (sound_modifyAccount fun account changed made sound => ?_) fun _ => inferInstance
  simp only [Account.claimShares, except_bind_eq_ok, ShareType.add_eq_ok, except_pure_eq_ok] at made
  obtain ⟨owned, exactOwned, _, _, _, _, rfl⟩ := made
  refine ⟨?_, sound.rate, sound.asked⟩
  change 0 ≤ owned.toInt
  rw [exactOwned]
  exact Int.add_nonneg sound.shares nonneg

theorem idle_claimRewardBalance {op : ClaimRewardBalanceOperation} (valid : op.validate = .ok ()) :
    Respects (Keeping ChainState.Idle) (claimRewardBalanceEvaluator op) where
  related s _ t run idle := by
    simp only [ClaimRewardBalanceOperation.validate, except_bind_eq_ok, ensure_eq_ok] at valid
    obtain ⟨_, _, _, _, _, _, _, _, _, _, _, _, _, nonneg, _⟩ := valid
    rw [Int64.le_iff_toInt_le] at nonneg
    simp only [claimRewardBalanceEvaluator, bind_eq_ok, getAccount_eq_ok, requireAtLeast_eq_ok,
      lift_eq_ok, and_assoc, exists_and_left, exists_eq_left', exists_const] at run
    obtain ⟨account, found, _, _, _, _, _, enough, liquid, moved, _, _, _, first, takenLiquids, _, _,
      _, second, takenDollars, _, third, paidLiquids, _, fourth, paidDollars, _, fifth, claimed, _,
      sixth, booked, voted⟩ := run
    obtain ⟨noShares, noLiquid⟩ :=
      nothing_to_claim (idle.unowed account (Table.mem_of_find? found)) nonneg enough moved
    have recorded : Respects (Keeping ChainState.Idle)
        (modifyDgp fun gpo => gpo.claimShares op.rewardVests.amount liquid) :=
      overlooked_modifyDgp [.fund, .pending] fun _ =>
        .bind fun _ => .bind fun _ => .bind fun _ => .bind fun _ => .pure rfl
    have paid : fourth.Idle :=
      keeps paidDollars (keeps paidLiquids (keeps takenDollars (keeps takenLiquids idle)))
    refine keeps voted (keeps booked ?_)
    obtain ⟨current, changed, again, made, rfl⟩ := modifyAccount_eq_ok.mp claimed
    simp only [Account.claimShares, noShares, noLiquid, except_bind_eq_ok, ShareType.sub_eq_ok,
      except_pure_eq_ok, Int64.toInt_zero, sub_zero, Int64.toInt_inj] at made
    obtain ⟨_, _, _, rfl, _, rfl, rfl⟩ := made
    exact ⟨paid.unpriced, paid.dollarless, Table.forall_mem_replace paid.unowed
      (paid.unowed current (Table.mem_of_find? again))⟩

/-! ### All operations -/

section Operations

variable {producing : Bool} {op : Operation} (valid : op.validate = .ok ())

include valid

theorem wellKept_applyOperation :
    Respects (Keeping ChainState.WellKept) (applyOperation producing op) := by
  cases op with
  | transferFromSavings op => exact wellKept_transferFromSavings valid
  | convert op => exact wellKept_convert valid
  | escrowTransfer op => exact wellKept_escrowTransfer valid
  | limitOrderCreate op => exact wellKept_limitOrderCreate valid
  | limitOrderCreate2 op => exact wellKept_limitOrderCreate2 valid
  | cancelTransferFromSavings op | escrowApprove op | escrowDispute op | escrowRelease op
  | limitOrderCancel op =>
    dsimp only [applyOperation, cancelTransferFromSavingsEvaluator, limitOrderCancelEvaluator]
    infer_instance
  | _ => exact respects_of_aspects (beside_applyOperation producing _) (of_decide_eq_true rfl)

theorem sound_applyOperation :
    Respects (Keeping ChainState.Sound) (applyOperation producing op) := by
  by_cases payment : op.isPayment
  · exact respects_payment payment
  cases op with
  | claimRewardBalance op => exact sound_claimRewardBalance valid
  | setWithdrawVestingRoute op => exact sound_setWithdrawVestingRoute valid
  | withdrawVesting op =>
    dsimp only [applyOperation]
    infer_instance
  | _ =>
    first
      | exact absurd rfl payment
      | exact respects_of_aspects (beside_applyOperation producing _) (of_decide_eq_true rfl)

theorem idle_applyOperation :
    Respects (Keeping ChainState.Idle) (applyOperation producing op) := by
  by_cases payment : op.isPayment
  · exact respects_payment payment
  cases op with
  | claimRewardBalance op => exact idle_claimRewardBalance valid
  | _ =>
    first
      | exact absurd rfl payment
      | exact respects_of_aspects (beside_applyOperation producing _) (of_decide_eq_true rfl)

end Operations

end Zattera
