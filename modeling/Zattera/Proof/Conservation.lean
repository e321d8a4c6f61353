/-
This file proves that no operation opens a gap in the books: whatever leaves one
balance enters another, is parked in an order, an escrow or a request, or leaves
the supply. Operations that move no balances are passed over by the instances;
for the others the entries of their steps add up to nothing.
-/

import Zattera.Proof.Ledger

namespace Zattera

open Program

set_option synthInstance.maxSize 4096

variable {u : Unit} {order : LimitOrder} {escrow : Escrow} {name owner : AccountName}
  {orderid : Nat} {pays : Asset} {gone : Bool} {shares liquid : ShareType}

/-! ### Transfers and savings -/

section Transfers

variable {s t : ChainState}

theorem gap_spend {amount : Asset} {message : String} (run : spend name amount message s = .ok u t) :
    t.gap = s.gap + amount.value := by
  simp only [spend, bind_eq_ok, getAccount_eq_ok, lift_eq_ok, requireAtLeast_eq_ok, and_assoc,
    exists_and_left, exists_eq_left', exists_const] at run
  obtain ⟨_, _, _, _, _, _, taken, negated, adjusted⟩ := run
  rw [gap_adjustBalance adjusted, Asset.value_neg negated, sub_neg_eq_add]

instance (o : TransferOperation) : Respects (Same ChainState.gap) (transferEvaluator o) where
  related s _ t run := by
    obtain ⟨_, _, spent, received⟩ := bind_eq_ok.mp run
    change t.gap = s.gap
    rw [gap_adjustBalance received, gap_spend spent]
    abel

instance (o : TransferToVestingOperation) :
    Respects (Same ChainState.gap) (transferToVestingEvaluator o) where
  related s _ t run := by
    simp only [transferToVestingEvaluator, bind_eq_ok, discard_eq_ok] at run
    obtain ⟨_, _, ⟨_, read⟩, _, _, spent, shares, vested⟩ := run
    change t.gap = s.gap
    rw [gap_createVesting vested, gap_spend spent, sameGap read]
    abel

instance (op : TransferToSavingsOperation) :
    Respects (Same ChainState.gap) (transferToSavingsEvaluator op) where
  related s _ t run := by
    simp only [transferToSavingsEvaluator, bind_eq_ok] at run
    obtain ⟨_, _, read, _, _, spent, received⟩ := run
    change t.gap = s.gap
    rw [gap_adjustSavingsBalance received, gap_spend spent, sameGap read]
    abel

instance (op : TransferFromSavingsOperation) :
    Respects (Same ChainState.gap) (transferFromSavingsEvaluator op) where
  related s _ t run := by
    simp only [transferFromSavingsEvaluator, bind_eq_ok, discard_eq_ok, getAccount_eq_ok,
      require_eq_ok, lift_eq_ok, requireAtLeast_eq_ok, headBlockTime_eq_ok, and_assoc,
      exists_and_left, exists_eq_left', exists_and_right, exists_const] at run
    obtain ⟨_, _, _, _, _, _, _, _, taken, negated, _, _, adjusted, _, _, added, counted⟩ := run
    change t.gap = s.gap
    rw [sameGap counted (x := updateAccount op.fromAccount _), gap_insertSavingsWithdraw added,
      gap_adjustSavingsBalance adjusted, Asset.value_neg negated]
    abel

instance (op : CancelTransferFromSavingsOperation) :
    Respects (Same ChainState.gap) (cancelTransferFromSavingsEvaluator op) where
  related s _ t run := by
    simp only [cancelTransferFromSavingsEvaluator, bind_eq_ok, get_eq_ok, lookup_eq_ok, and_assoc,
      exists_and_left, exists_eq_left'] at run
    obtain ⟨withdraw, found, _, _, adjusted, _, _, erased, counted⟩ := run
    rw [← keptField ChainState.savingsWithdraws (fun _ => rfl) adjusted] at found
    change t.gap = s.gap
    rw [sameGap counted (x := updateAccount op.fromAccount _),
      gap_eraseSavingsWithdraw erased found, gap_adjustSavingsBalance adjusted]
    abel

instance (o : ConvertOperation) : Respects (Same ChainState.gap) (convertEvaluator o) where
  related s _ t run := by
    simp only [convertEvaluator, bind_eq_ok, get_eq_ok, require_eq_ok, headBlockTime_eq_ok,
      and_assoc, exists_and_left, exists_eq_left', exists_const] at run
    obtain ⟨_, _, spent, _, added⟩ := run
    change t.gap = s.gap
    rw [gap_insertConvertRequest added, gap_spend spent]
    abel

/-- Paying a fee out of the liquid balance. -/
theorem held_payFee {account changed : Account} {fee : Asset} (isLiquid : fee.symbol = .liquid)
    {balance : ShareType} (exact_ : balance.toInt = account.liquidBalance.toInt - fee.amount.toInt)
    (changed_ : changed.held = ({ account with liquidBalance := balance } : Account).held) :
    changed.held = account.held + -fee.value := by
  rw [changed_, held_liquidBalance, exact_, sub_sub_cancel_left, Asset.value, isLiquid,
    AssetSymbol.pool, ← Pi.single_neg]

instance (o : ClaimAccountOperation) :
    Respects (Same ChainState.gap) (claimAccountEvaluator o) where
  related s _ t run := by
    simp only [claimAccountEvaluator, bind_eq_ok, getAccount_eq_ok, requireAtLeast_eq_ok, get_eq_ok,
      require_eq_ok, and_assoc, exists_and_left, exists_eq_left', exists_const] at run
    obtain ⟨_, _, isLiquid, _, _, _, _, _, _, adjusted, paid⟩ := run
    change t.gap = s.gap
    rw [@gap_modifyAccount _ _ _ _ (-o.fee.value) _ paid, gap_adjustBalance adjusted]
    · abel
    · intro account changed _ made
      simp only [except_bind_eq_ok, ShareType.sub_eq_ok, except_pure_eq_ok] at made
      obtain ⟨balance, exact_, _, _, rfl⟩ := made
      exact ⟨rfl, held_payFee isLiquid.symm exact_ rfl⟩

end Transfers

/-! ### Escrows -/

section Escrows

variable {s t : ChainState}

/-- What an escrow takes, in both tokens, is what it holds. -/
theorem value_escrowSpent {o : EscrowTransferOperation} {liquidSpent dollarsSpent : Asset}
    (liquid : o.liquidSpent = .ok liquidSpent) (dollars : o.dollarsSpent = .ok dollarsSpent) :
    liquidSpent.value + dollarsSpent.value =
      o.liquidAmount.value + o.dollarAmount.value + o.fee.value := by
  unfold EscrowTransferOperation.liquidSpent at liquid
  unfold EscrowTransferOperation.dollarsSpent at dollars
  split at liquid
  · next paidLiquid =>
    rw [if_pos paidLiquid] at dollars
    cases dollars
    rw [Asset.value_add liquid]
    abel
  · next paidDollars =>
    rw [if_neg paidDollars] at dollars
    cases liquid
    rw [Asset.value_add dollars]
    abel

theorem symbol_escrowSpent {o : EscrowTransferOperation} {liquidSpent dollarsSpent : Asset}
    (liquid : o.liquidSpent = .ok liquidSpent) (dollars : o.dollarsSpent = .ok dollarsSpent) :
    o.liquidAmount.symbol = liquidSpent.symbol ∧ o.dollarAmount.symbol = dollarsSpent.symbol := by
  unfold EscrowTransferOperation.liquidSpent at liquid
  unfold EscrowTransferOperation.dollarsSpent at dollars
  split at liquid
  · next paidLiquid =>
    rw [if_pos paidLiquid] at dollars
    cases dollars
    exact ⟨(Asset.symbol_add liquid).symm, rfl⟩
  · next paidDollars =>
    rw [if_neg paidDollars] at dollars
    cases liquid
    exact ⟨rfl, (Asset.symbol_add dollars).symm⟩

instance (o : EscrowTransferOperation) :
    Respects (Same ChainState.gap) (escrowTransferEvaluator o) where
  related s _ t run := by
    simp only [escrowTransferEvaluator, bind_eq_ok, discard_eq_ok, getAccount_eq_ok,
      headBlockTime_eq_ok, require_eq_ok, lift_eq_ok, requireAtLeast_eq_ok, and_assoc,
      exists_and_left, exists_and_right, exists_eq_left', exists_const] at run
    obtain ⟨_, _, _, _, _, _, liquidSpent, liquid, dollarsSpent, dollars, isLiquid, _, isDollar, _,
      liquidTaken, negatedLiquid, _, _, takenLiquid, dollarsTaken, negatedDollars, _, _,
      takenDollars, added⟩ := run
    obtain ⟨sameLiquid, sameDollar⟩ := symbol_escrowSpent liquid dollars
    change t.gap = s.gap
    rw [gap_insertEscrow added, gap_adjustBalance takenDollars, Asset.value_neg negatedDollars,
      gap_adjustBalance takenLiquid, Asset.value_neg negatedLiquid, Escrow.held,
      Asset.value_of_symbol (sameLiquid.trans isLiquid.symm),
      Asset.value_of_symbol (sameDollar.trans isDollar.symm), ← value_escrowSpent liquid dollars]
    abel

theorem key_of_find_escrow {key : AccountName × Nat} (found : s.escrows.find? key = some escrow) :
    (escrow.fromAccount, escrow.escrowId) = key :=
  (Table.find?_eq_some_iff.mp found).2

theorem getEscrow_eq_ok {account : AccountName} {escrowId : Nat} :
    getEscrow account escrowId s = .ok escrow t ↔
      s.escrows.find? (account, escrowId) = some escrow ∧ s = t := by
  rw [getEscrow, get_bind_eq_ok, lookup_eq_ok]

/-- An escrow that is in the books is paid back in full. -/
theorem gap_refundEscrow
    (found : s.escrows.find? (escrow.fromAccount, escrow.escrowId) = some escrow)
    (run : refundEscrow escrow s = .ok u t) : t.gap = s.gap := by
  simp only [refundEscrow, bind_eq_ok] at run
  obtain ⟨_, _, liquid, _, _, dollars, _, _, fee, erased⟩ := run
  rw [← keptField ChainState.escrows (fun _ => rfl) liquid,
    ← keptField ChainState.escrows (fun _ => rfl) dollars,
    ← keptField ChainState.escrows (fun _ => rfl) fee] at found
  rw [gap_eraseEscrow erased found, gap_adjustBalance fee, gap_adjustBalance dollars,
    gap_adjustBalance liquid, Escrow.held]
  abel

theorem Escrow.approvedBy_eq_ok {approved : Escrow} {who toAccount agent : AccountName}
    {approve : Bool} (made : escrow.approvedBy who toAccount agent approve = .ok approved) :
    ∃ toApproved agentApproved, approved =
        { escrow with toApproved := toApproved, agentApproved := agentApproved } ∧
      (approve = false → approved = escrow) := by
  simp only [Escrow.approvedBy, except_bind_eq_ok, except_pure_eq_ok] at made
  obtain ⟨_, _, _, _, rfl⟩ := made
  refine ⟨_, _, rfl, fun rejected => ?_⟩
  simp [rejected]

/-- Putting an escrow back, and what is found under its key then. -/
theorem putEscrow_run {old : Escrow} (run : putEscrow escrow s = .ok u t)
    (found : s.escrows.find? (escrow.fromAccount, escrow.escrowId) = some old) :
    t.gap = s.gap + old.held - escrow.held ∧
      t.escrows.find? (escrow.fromAccount, escrow.escrowId) = some escrow := by
  refine ⟨gap_putEscrow run found, ?_⟩
  obtain rfl := modify_eq_ok.mp run
  exact @Table.find?_replace_self _ _ _ _ escrow _ _ found

instance (o : EscrowApproveOperation) :
    Respects (Same ChainState.gap) (escrowApproveEvaluator o) where
  related s _ t run := by
    simp only [escrowApproveEvaluator, bind_eq_ok, getEscrow_eq_ok, headBlockTime_eq_ok,
      require_eq_ok, lift_eq_ok, and_assoc, exists_and_left, exists_eq_left', exists_const] at run
    obtain ⟨escrow, found, _, _, parties, _, approved, made, _, middle, put, rest⟩ := run
    obtain rfl := unmoved parties
    obtain ⟨toApproved, agentApproved, rfl, _⟩ := Escrow.approvedBy_eq_ok made
    rw [← key_of_find_escrow found] at found
    obtain ⟨unchanged, again⟩ := putEscrow_run put found
    have same : middle.gap = s.gap := unchanged.trans (add_sub_cancel_right _ _)
    change t.gap = s.gap
    rw [← same]
    split at rest
    · exact gap_refundEscrow again rest
    · rcases whenever_eq_ok.mp rest with ⟨_, ratified⟩ | ⟨_, rfl⟩
      · obtain ⟨_, _, paid, cleared⟩ := bind_eq_ok.mp ratified
        rw [← keptField ChainState.escrows (fun _ => rfl) paid] at again
        rw [gap_putEscrow cleared again, gap_adjustBalance paid]
        simp only [Escrow.held, Asset.value_mk_zero]
        abel
      · rfl

instance (o : EscrowDisputeOperation) :
    Respects (Same ChainState.gap) (escrowDisputeEvaluator o) where
  related s _ t run := by
    simp only [escrowDisputeEvaluator, bind_eq_ok, discard_eq_ok, getAccount_eq_ok, getEscrow_eq_ok,
      headBlockTime_eq_ok, require_eq_ok, and_assoc, exists_and_left, exists_and_right,
      exists_eq_left', exists_const] at run
    obtain ⟨_, escrow, found, _, _, _, _, _, parties, put⟩ := run
    obtain rfl := unmoved parties
    rw [← key_of_find_escrow found] at found
    exact (gap_putEscrow put found).trans (add_sub_cancel_right _ _)

/-- The fee of an escrow both sides have approved is paid, and it never was in vesting shares. -/
def Escrow.Kept (escrow : Escrow) : Prop :=
  escrow.pendingFee.symbol ≠ .vests ∧ (escrow.isApproved → escrow.pendingFee.amount = 0)

theorem gap_escrowRelease {o : EscrowReleaseOperation} (kept : ∀ escrow ∈ s.escrows, escrow.Kept)
    (run : escrowReleaseEvaluator o s = .ok u t) : t.gap = s.gap := by
  simp only [escrowReleaseEvaluator, bind_eq_ok, discard_eq_ok, getAccount_eq_ok, getEscrow_eq_ok,
    requireAtLeast_eq_ok, headBlockTime_eq_ok, require_eq_ok, lift_eq_ok, ShareType.sub_eq_ok,
    and_assoc, exists_and_left, exists_and_right, exists_eq_left', exists_const] at run
  obtain ⟨_, escrow, found, isLiquid, _, isDollar, _, _, _, parties, _, approved, _, _, released, _,
    _, paidLiquid, _, _, paidDollars, liquidBalance, exactLiquid, dollarBalance, exactDollar, _,
    middle, put, rest⟩ := run
  obtain rfl := unmoved parties
  obtain rfl := unmoved released
  have paidFee := (kept escrow (Table.mem_of_find? found)).2 approved
  rw [← keptField ChainState.escrows (fun _ => rfl) paidLiquid,
    ← keptField ChainState.escrows (fun _ => rfl) paidDollars] at found
  rw [← key_of_find_escrow found] at found
  obtain ⟨changed, again⟩ := putEscrow_run put found
  have same : middle.gap = s.gap := by
    rw [changed, gap_adjustBalance paidDollars, gap_adjustBalance paidLiquid,
      ← Asset.value_of_symbol isLiquid.symm, ← Asset.value_of_symbol isDollar.symm]
    simp only [Escrow.held, Asset.value, exactLiquid, exactDollar, Pi.single_sub]
    abel
  rcases whenever_eq_ok.mp rest with ⟨⟨noLiquid, noDollars⟩, erased⟩ | ⟨_, rfl⟩
  · rw [gap_eraseEscrow erased again, same]
    simp [Escrow.held, noLiquid, noDollars, Asset.value, paidFee]
  · exact same

end Escrows

/-! ### The market -/

section Market

variable {s t : ChainState}

theorem getLimitOrder_eq_ok :
    getLimitOrder owner orderid s = .ok order t ↔
      s.limitOrders.find? (owner, orderid) = some order ∧ s = t := by
  rw [getLimitOrder, get_bind_eq_ok, lookup_eq_ok]

theorem gap_cancelOrder (found : s.limitOrders.find? (order.seller, order.orderid) = some order)
    (run : cancelOrder order s = .ok u t) :
    t.gap = s.gap ∧ t.limitOrders = s.limitOrders.erase (order.seller, order.orderid) := by
  obtain ⟨_, middle, paid, erased⟩ := bind_eq_ok.mp run
  have same := keptField ChainState.limitOrders (fun _ => rfl) paid
  rw [← same] at found ⊢
  constructor
  · rw [gap_eraseLimitOrder erased found, gap_adjustBalance paid]
    abel
  · rw [← modify_eq_ok.mp erased]

theorem fillOrder_symbols {receives : Asset} (run : fillOrder order pays receives s = .ok gone t) :
    order.sellPrice.base.symbol = pays.symbol ∧ pays.symbol ≠ receives.symbol := by
  simp only [fillOrder, bind_eq_ok, require_eq_ok, and_assoc, exists_and_left, exists_eq_left',
    exists_const] at run
  exact ⟨run.1, run.2.1⟩

theorem LimitOrder.value_sold {forSale : ShareType}
    (sells : order.sellPrice.base.symbol = pays.symbol)
    (exact_ : forSale.toInt = order.forSale.toInt - pays.amount.toInt) :
    ({ order with forSale := forSale } : LimitOrder).amountForSale.value =
      order.amountForSale.value - pays.value := by
  simp only [LimitOrder.amountForSale, Asset.value, exact_, sells, Pi.single_sub]

/-- What filling an order does to the books and to the open orders. -/
structure Filled (order : LimitOrder) (pays receives : Asset) (s t : ChainState) : Prop where
  gap : t.gap = s.gap + pays.value - receives.value
  others : ∀ key, key ≠ (order.seller, order.orderid) →
    t.limitOrders.find? key = s.limitOrders.find? key
  remains : ∀ rest, t.limitOrders.find? (order.seller, order.orderid) = some rest →
    rest.sellPrice = order.sellPrice

theorem fillOrder_eq_ok {receives : Asset}
    (found : s.limitOrders.find? (order.seller, order.orderid) = some order)
    (run : fillOrder order pays receives s = .ok gone t) : Filled order pays receives s t := by
  simp only [fillOrder, bind_eq_ok, require_eq_ok, and_assoc, exists_and_left, exists_eq_left',
    exists_const] at run
  obtain ⟨sells, differs, _, paid, received, rest⟩ := run
  have same := keptField ChainState.limitOrders (fun _ => rfl) received
  have gapPaid := gap_adjustBalance received
  rw [← same] at found
  split at rest
  · next whole =>
    obtain ⟨_, _, erased, finished⟩ := bind_eq_ok.mp rest
    obtain ⟨_, rfl⟩ := pure_eq_ok.mp finished
    refine ⟨?_, fun key different => ?_, fun rest remaining => ?_⟩
    · rw [gap_eraseLimitOrder erased found, gapPaid, whole]
      abel
    · rw [← modify_eq_ok.mp erased, Table.find?_erase_of_ne different, same]
    · rw [← modify_eq_ok.mp erased, Table.find?_erase_self] at remaining
      cases remaining
  · simp only [bind_eq_ok, require_eq_ok, lift_eq_ok, ShareType.sub_eq_ok, and_assoc,
      exists_and_left, exists_eq_left', exists_const] at rest
    obtain ⟨_, forSale, exact_, _, stored, put, asking, _, finished⟩ := rest
    have gapPut : stored.gap = s.gap + pays.value - receives.value := by
      rw [gap_putLimitOrder put found, gapPaid, LimitOrder.value_sold sells exact_]
      abel
    have again := @Table.find?_replace_self _ _ _ _ { order with forSale := forSale } _ _ found
    have othersPut (key) (different : key ≠ (order.seller, order.orderid)) :
        stored.limitOrders.find? key = s.limitOrders.find? key := by
      rw [← modify_eq_ok.mp put, ← same]
      exact Table.find?_replace_of_ne different
    rw [← modify_eq_ok.mp put] at gapPut othersPut
    split at finished
    · obtain ⟨_, _, cancelled, finished⟩ := bind_eq_ok.mp finished
      obtain ⟨_, rfl⟩ := pure_eq_ok.mp finished
      rw [← modify_eq_ok.mp put] at cancelled
      obtain ⟨gapCancelled, erased⟩ := gap_cancelOrder again cancelled
      refine ⟨gapCancelled.trans gapPut, fun key different => ?_,
        fun rest remaining => ?_⟩
      · rw [erased, Table.find?_erase_of_ne different, othersPut key different]
      · rw [erased, Table.find?_erase_self] at remaining
        cases remaining
    · obtain ⟨_, rfl⟩ := pure_eq_ok.mp finished
      rw [← modify_eq_ok.mp put]
      refine ⟨gapPut, othersPut, fun rest remaining => ?_⟩
      rw [again] at remaining
      cases remaining
      rfl

/-- What matching two orders does: the books stay balanced, and no third order is touched. -/
theorem matchOrders_eq_ok {newOrder oldOrder : LimitOrder} {gone : Bool × Bool}
    (foundNew : s.limitOrders.find? (newOrder.seller, newOrder.orderid) = some newOrder)
    (foundOld : newOrder.sellPrice.base.symbol ≠ oldOrder.sellPrice.base.symbol →
      s.limitOrders.find? (oldOrder.seller, oldOrder.orderid) = some oldOrder)
    (run : matchOrders newOrder oldOrder s = .ok gone t) :
    newOrder.sellPrice.base.symbol ≠ oldOrder.sellPrice.base.symbol ∧ t.gap = s.gap ∧
      (∀ key, key ≠ (newOrder.seller, newOrder.orderid) →
        key ≠ (oldOrder.seller, oldOrder.orderid) →
          t.limitOrders.find? key = s.limitOrders.find? key) ∧
      ∀ rest, t.limitOrders.find? (newOrder.seller, newOrder.orderid) = some rest →
        rest.sellPrice = newOrder.sellPrice := by
  simp only [matchOrders, bind_eq_ok, require_eq_ok, lift_eq_ok, pure_eq_ok, and_assoc,
    exists_and_left, exists_eq_left', exists_const] at run
  obtain ⟨_, _, _, _, amounts, _, _, newGone, middle, fillNew, oldGone, _, fillOld, _, _, rfl⟩ :=
    run
  have different : newOrder.sellPrice.base.symbol ≠ oldOrder.sellPrice.base.symbol := by
    rw [(fillOrder_symbols fillNew).1, (fillOrder_symbols fillOld).1]
    exact (fillOrder_symbols fillNew).2
  replace foundOld := foundOld different
  have otherKey : (oldOrder.seller, oldOrder.orderid) ≠ (newOrder.seller, newOrder.orderid) := by
    intro same
    rw [same, foundNew, Option.some.injEq] at foundOld
    exact different (by rw [foundOld])
  have filledNew := fillOrder_eq_ok foundNew fillNew
  rw [← filledNew.others _ otherKey] at foundOld
  have filledOld := fillOrder_eq_ok foundOld fillOld
  refine ⟨different, ?_, fun key notNew notOld => ?_, fun rest remaining => ?_⟩
  · rw [filledOld.gap, filledNew.gap]
    abel
  · rw [filledOld.others key notOld, filledNew.others key notNew]
  · rw [filledOld.others _ otherKey.symm] at remaining
    exact filledNew.remains rest remaining

/-- Matching an order with those on the other side, as long as they are the ones in the books. An
order that sells the same token is never matched, so nothing is asked of it. -/
theorem gap_matchWithEach {symbol : AssetSymbol} {orders : List LimitOrder}
    (distinct : (orders.map fun order => (order.seller, order.orderid)).Nodup)
    (listed : ∀ order ∈ orders, symbol ≠ order.sellPrice.base.symbol →
      s.limitOrders.find? (order.seller, order.orderid) = some order ∧
        (order.seller, order.orderid) ≠ (owner, orderid))
    (sells : ∀ order, s.limitOrders.find? (owner, orderid) = some order →
      order.sellPrice.base.symbol = symbol) (run : matchWithEach owner orderid orders s = .ok u t) :
    t.gap = s.gap := by
  induction orders generalizing s with
  | nil =>
    obtain ⟨_, rfl⟩ := pure_eq_ok.mp run
    rfl
  | cons oldOrder rest inductionHypothesis =>
    simp only [matchWithEach, bind_eq_ok, getLimitOrder_eq_ok, and_assoc, exists_and_left,
      exists_eq_left'] at run
    obtain ⟨newOrder, found, gone, middle, matched, further⟩ := run
    obtain rfl := sells newOrder found
    obtain ⟨rfl, rfl⟩ := Prod.mk.injEq .. ▸ Table.key_of_find? found
    obtain ⟨different, same, others, remains⟩ := matchOrders_eq_ok found
      (fun different => (listed oldOrder List.mem_cons_self different).1) matched
    split at further
    · obtain ⟨_, rfl⟩ := pure_eq_ok.mp further
      exact same
    · rw [List.map_cons, List.nodup_cons] at distinct
      refine (inductionHypothesis distinct.2 (fun order member differs => ?_)
        (fun order remaining => ?_) further).trans same
      · obtain ⟨inBooks, notNew⟩ := listed order (List.mem_cons_of_mem _ member) differs
        refine ⟨?_, notNew⟩
        rw [others _ notNew fun equal => distinct.1 (equal ▸ List.mem_map_of_mem member)]
        exact inBooks
      · rw [remains order remaining]

theorem matchingOrders_listed (s : ChainState) (highest maxPrice : Price) :
    s.limitOrders.Lists (s.matchingOrders highest maxPrice) :=
  Table.lists_of_perm_filter (List.perm_insertionSort _ _)

theorem gap_applyOrder (found : s.limitOrders.find? (order.seller, order.orderid) = some order)
    (run : applyOrder order s = .ok gone t) : t.gap = s.gap := by
  simp only [applyOrder, bind_eq_ok, lift_eq_ok, get_eq_ok, pure_eq_ok, and_assoc, exists_and_left,
    exists_eq_left'] at run
  obtain ⟨maxPrice, _, highest, _, _, middle, matched, _, _, rfl, rfl⟩ := run
  obtain ⟨distinct, listed⟩ := matchingOrders_listed s highest maxPrice
  have sells (other) (again : s.limitOrders.find? (order.seller, order.orderid) = some other) :
      other.sellPrice.base.symbol = order.sellPrice.base.symbol := by
    rw [found, Option.some.injEq] at again
    rw [again]
  refine gap_matchWithEach distinct (fun old member differs => ⟨listed old member, fun same => ?_⟩)
    sells matched
  exact differs (sells old (same ▸ listed old member)).symm

theorem gap_createLimitOrder {amountToSell : Asset} {sellPrice : Except ChainError Price}
    {fillOrKill : Bool} {expiration : TimePointSec}
    (sells : ∀ price, sellPrice = .ok price → price.base.symbol = amountToSell.symbol)
    (run : createLimitOrder owner orderid amountToSell sellPrice fillOrKill expiration s =
      .ok u t) : t.gap = s.gap := by
  simp only [createLimitOrder, bind_eq_ok, headBlockTime_eq_ok, require_eq_ok, lift_eq_ok,
    and_assoc, exists_and_left, exists_eq_left', exists_const] at run
  obtain ⟨_, _, _, _, spent, price, priced, _, _, inserted, gone, _, applied, rest⟩ := run
  obtain ⟨added, isNew, rfl⟩ := create_eq_ok.mp inserted
  rw [sameGap rest, gap_applyOrder (Table.find?_insert?_self isNew) applied,
    gap_insertLimitOrder inserted, gap_spend spent, LimitOrder.amountForSale,
    Asset.value_of_symbol (sells price priced).symm]
  abel

instance (o : LimitOrderCreateOperation) :
    Respects (Same ChainState.gap) (limitOrderCreateEvaluator o) where
  related s _ t run := by
    refine gap_createLimitOrder (fun price made => ?_) run
    simp only [Price.ofAssets, except_bind_eq_ok, Price.make_eq_ok] at made
    obtain ⟨_, _, rfl, _⟩ := made
    rfl

theorem sameGap_limitOrderCreate2 {o : LimitOrderCreate2Operation} (valid : o.validate = .ok ()) :
    Respects (Same ChainState.gap) (limitOrderCreate2Evaluator o) where
  related s _ t run := by
    refine gap_createLimitOrder (fun price made => ?_) run
    cases made
    simp only [LimitOrderCreate2Operation.validate, except_bind_eq_ok, ensure_eq_ok] at valid
    obtain ⟨_, _, _, sells, _⟩ := valid
    exact sells.symm

instance (o : LimitOrderCancelOperation) :
    Respects (Same ChainState.gap) (limitOrderCancelEvaluator o) where
  related s _ t run := by
    obtain ⟨order, _, read, cancelled⟩ := bind_eq_ok.mp run
    obtain ⟨found, rfl⟩ := getLimitOrder_eq_ok.mp read
    rw [← Table.key_of_find? found] at found
    exact (gap_cancelOrder found cancelled).1

instance : Respects (Same ChainState.gap) clearExpiredOrders where
  related s _ t run := by
    have looped := get_bind_eq_ok.mp run
    refine forM_listed ChainState.limitOrders (fun order s t _ found turned => ?_)
      (Table.lists_of_perm_filter (List.perm_insertionSort _ _)) looped
    obtain ⟨same, erased⟩ := gap_cancelOrder found turned
    refine ⟨same, fun key different => ?_⟩
    rw [erased, Table.find?_erase_of_ne different]

end Market

/-! ### Accounts -/

section Accounts

variable {s t : ChainState}

/-- A new account holds nothing. -/
instance (name creator : AccountName) (owner active posting : Authority) (received : ShareType) :
    Respects (Same ChainState.gap) (createAccount name creator owner active posting received) where
  related s _ t run := by
    simp only [createAccount, bind_eq_ok, get_eq_ok, and_assoc, exists_and_left,
      exists_eq_left'] at run
    obtain ⟨_, _, added, authorized⟩ := run
    obtain ⟨_, _, rfl⟩ := create_eq_ok.mp authorized
    change ChainState.gap _ = _
    refine (gap_insertAccount added).trans (sub_eq_self.mpr ?_)
    funext pool
    cases pool <;> simp [Account.held, initializeAccountObject, Account.make]

/-- The fee of a new account becomes its vesting shares. -/
theorem gap_vestFee {fee : Asset} (nonneg : 0 ≤ fee.amount)
    (run : whenever (0 < fee.amount) (discard (createVesting name fee)) s = .ok u t) :
    t.gap = s.gap - fee.value := by
  rcases whenever_eq_ok.mp run with ⟨_, vested⟩ | ⟨none, rfl⟩
  · obtain ⟨shares, vested⟩ := discard_eq_ok.mp vested
    exact gap_createVesting vested
  · rw [Int64.lt_iff_toInt_lt] at none
    rw [Int64.le_iff_toInt_le] at nonneg
    have zero : fee.amount.toInt = 0 := by
      change ¬ 0 < fee.amount.toInt at none
      change 0 ≤ fee.amount.toInt at nonneg
      omega
    rw [Asset.value, zero, Pi.single_zero, sub_zero]

theorem sameGap_accountCreate {producing : Bool} {o : AccountCreateOperation}
    (valid : o.validate = .ok ()) :
    Respects (Same ChainState.gap) (accountCreateEvaluator producing o) where
  related s _ t run := by
    simp only [AccountCreateOperation.validate, except_bind_eq_ok, ensure_eq_ok] at valid
    obtain ⟨_, _, _, _, _, _, _, _, _, _, nonneg⟩ := valid
    simp only [accountCreateEvaluator, bind_eq_ok, getAccount_eq_ok, requireAtLeast_eq_ok,
      get_eq_ok, and_assoc, exists_and_left, exists_eq_left', exists_const] at run
    obtain ⟨_, _, isLiquid, _, _, _, _, _, authorities, _, _, owner, _, _, active, _, _, posting, _,
      _, paid, _, _, created, vested⟩ := run
    obtain rfl := unmoved authorities
    obtain rfl := unmoved owner
    obtain rfl := unmoved active
    obtain rfl := unmoved posting
    have charged := gap_modifyAccount paid fun account changed _ made => by
      simp only [except_bind_eq_ok, ShareType.sub_eq_ok, except_pure_eq_ok] at made
      obtain ⟨balance, exact_, rfl⟩ := made
      exact ⟨rfl, held_payFee isLiquid.symm exact_ rfl⟩
    change t.gap = s.gap
    rw [gap_vestFee nonneg vested, sameGap created, charged]
    abel

theorem sameGap_accountCreateWithDelegation {producing : Bool}
    {o : AccountCreateWithDelegationOperation} (valid : o.validate = .ok ()) :
    Respects (Same ChainState.gap) (accountCreateWithDelegationEvaluator producing o) where
  related s _ t run := by
    simp only [AccountCreateWithDelegationOperation.validate, except_bind_eq_ok,
      ensure_eq_ok] at valid
    obtain ⟨_, _, _, _, _, _, _, _, _, _, _, _, _, _, _, _, _, nonneg, _⟩ := valid
    simp only [accountCreateWithDelegationEvaluator, bind_eq_ok, getAccount_eq_ok,
      requireAtLeast_eq_ok, get_eq_ok, lift_eq_ok, headBlockTime_eq_ok, and_assoc, exists_and_left,
      exists_eq_left', exists_const] at run
    obtain ⟨_, _, isLiquid, _, _, _, _, _, _, _, delegation, _, _, _, _, authorities, _, _, owner,
      _, _, active, _, _, posting, _, _, paid, _, _, created, _, _, delegated, vested⟩ := run
    obtain rfl := unmoved delegation
    obtain rfl := unmoved authorities
    obtain rfl := unmoved owner
    obtain rfl := unmoved active
    obtain rfl := unmoved posting
    have charged := gap_modifyAccount paid fun account changed _ made => by
      simp only [except_bind_eq_ok, ShareType.sub_eq_ok, ShareType.add_eq_ok,
        except_pure_eq_ok] at made
      obtain ⟨balance, exact_, _, _, rfl⟩ := made
      exact ⟨rfl, held_payFee isLiquid.symm exact_ rfl⟩
    change t.gap = s.gap
    rw [gap_vestFee nonneg vested, sameGap delegated, sameGap created, charged]
    abel

instance (o : CreateClaimedAccountOperation) :
    Respects (Same ChainState.gap) (createClaimedAccountEvaluator o) := by
  have counted : Respects (Same ChainState.gap) (modifyAccount o.creator fun creator => do
      let pending ← creator.pendingClaimedAccounts.sub 1
      return { creator with pendingClaimedAccounts := pending }) :=
    overlooked_modifyAccount [.record] fun _ => .bind fun _ => .pure rfl
  dsimp only [createClaimedAccountEvaluator]
  infer_instance

end Accounts

/-! ### Claims -/

/-- Claimed shares and the liquid tokens behind them, as an entry in the books: they move from what
is owed to what is owned. -/
def claimEntry (shares liquid : ShareType) : Pool → Int
  | .liquid => -liquid.toInt
  | .dollar => 0
  | .shares => shares.toInt
  | .owedShares => -shares.toInt
  | .owedLiquid => -liquid.toInt

theorem held_claimShares {account changed : Account}
    (made : account.claimShares shares liquid = .ok changed) :
    changed.name = account.name ∧ changed.held = account.held + claimEntry shares liquid := by
  simp only [Account.claimShares, except_bind_eq_ok, ShareType.add_eq_ok, ShareType.sub_eq_ok,
    except_pure_eq_ok] at made
  obtain ⟨_, owned, _, owed, _, owedLiquid, rfl⟩ := made
  refine ⟨rfl, ?_⟩
  funext pool
  cases pool <;> simp [Account.held, claimEntry, owned, owed, owedLiquid] <;> omega

theorem issued_claimShares {gpo changed : DynamicGlobalProperties}
    (made : gpo.claimShares shares liquid = .ok changed) :
    changed.issued = gpo.issued + claimEntry shares liquid := by
  simp only [DynamicGlobalProperties.claimShares, except_bind_eq_ok, ShareType.add_eq_ok,
    ShareType.sub_eq_ok, except_pure_eq_ok] at made
  obtain ⟨_, total, _, fund, _, pending, _, pendingLiquid, rfl⟩ := made
  funext pool
  cases pool <;> simp [DynamicGlobalProperties.issued, claimEntry, total, fund, pending,
    pendingLiquid] <;> omega

theorem gap_claimShares {s t u : ChainState} {v w : Unit}
    (claimed : modifyAccount name (fun account => account.claimShares shares liquid) s = .ok v t)
    (booked : modifyDgp (fun gpo => gpo.claimShares shares liquid) t = .ok w u) :
    u.gap = s.gap := by
  obtain ⟨dgp, made, rfl⟩ := modifyDgp_eq_ok.mp booked
  rw [gap_setDgp, issued_claimShares made,
    gap_modifyAccount claimed fun _ _ _ made => held_claimShares made]
  abel

instance (op : ClaimRewardBalanceOperation) :
    Respects (Same ChainState.gap) (claimRewardBalanceEvaluator op) where
  related s _ t run := by
    simp only [claimRewardBalanceEvaluator, bind_eq_ok, getAccount_eq_ok, requireAtLeast_eq_ok,
      lift_eq_ok, and_assoc, exists_and_left, exists_eq_left', exists_const] at run
    obtain ⟨_, _, _, _, _, _, _, _, _, _, liquidsTaken, negatedLiquids, _, _, takenLiquids,
      dollarsTaken, negatedDollars, _, _, takenDollars, _, _, paidLiquids, _, _, paidDollars, _, _,
      claimed, _, _, booked, voted⟩ := run
    change t.gap = s.gap
    rw [sameGap voted, gap_claimShares claimed booked, gap_adjustBalance paidDollars,
      gap_adjustBalance paidLiquids, gap_adjustRewardBalance takenDollars,
      gap_adjustRewardBalance takenLiquids, rewardValue_zero, rewardValue_zero,
      Asset.value_neg negatedLiquids, Asset.value_neg negatedDollars]
    abel

end Zattera
