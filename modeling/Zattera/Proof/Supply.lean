/-
This file shows that every token is accounted for. Dollars balance in every state
a chain reaches, whatever supplies it starts with. A chain that starts without
dollars never gets a price, because the least price it would be raised to cannot
be formed; so no reward is ever paid, nothing is owed, and liquid tokens and
vesting shares balance as well.
-/

import Zattera.Proof.Payouts

namespace Zattera

open Program Faceted

set_option synthInstance.maxSize 4096

/-! ### What every step keeps -/

/-- Dollars stay as balanced as they were, and books that balance while nothing is owed still do. -/
structure Conserves (s t : ChainState) : Prop where
  dollars : t.dollarGap = s.dollarGap
  settled : s.Idle ∧ s.gap = 0 → t.Idle ∧ t.gap = 0

instance : Std.Refl Conserves := ⟨fun _ => ⟨rfl, id⟩⟩

instance : IsTrans ChainState Conserves where
  trans _ _ _ first second :=
    ⟨second.dollars.trans first.dollars, fun settled => second.settled (first.settled settled)⟩

/-- Vesting shares stay as balanced as they were, whatever is owed. -/
structure Reconciles (s t : ChainState) : Prop extends Conserves s t where
  shares : t.gap .shares = s.gap .shares

instance : Std.Refl Reconciles := ⟨fun s => ⟨refl s, rfl⟩⟩

instance : IsTrans ChainState Reconciles where
  trans s u t first second :=
    ⟨IsTrans.trans s u t first.toConserves second.toConserves, second.shares.trans first.shares⟩

/-- The books are kept, as are the invariants they rest on. -/
abbrev Balances : ChainState → ChainState → Prop := Under ChainState.Regular Reconciles

section Rules

variable {α : Type} {x : Chain α} [regularly : Respects (Keeping ChainState.Regular) x]
  [idly : Respects (Keeping ChainState.Idle) x]

include regularly idly

/-- A program that leaves the books of a regular state as they are. -/
theorem balances_of_gap (books : ∀ s a t, s.Regular → x s = .ok a t → t.gap = s.gap) :
    Respects Balances x where
  related s a t run regular := by
    have same := books s a t regular run
    exact ⟨keeps run regular, ⟨congrFun same Pool.dollar, fun settled =>
      ⟨keeps run settled.1, same.trans settled.2⟩⟩, congrFun same Pool.shares⟩

theorem balances_of_sameGap [books : Respects (Same ChainState.gap) x] : Respects Balances x :=
  balances_of_gap fun s a t _ run => books.related s a t run

end Rules

/-! ### Operations -/

/-- An operation moves tokens from one place to another. -/
theorem gap_applyOperation {producing : Bool} {op : Operation} {s t : ChainState} {u : Unit}
    (valid : op.validate = .ok ()) (regular : s.Regular)
    (run : applyOperation producing op s = .ok u t) : t.gap = s.gap := by
  cases op with
  | escrowRelease op => exact gap_escrowRelease regular.kept.escrows run
  | limitOrderCreate2 op => exact (sameGap_limitOrderCreate2 valid).related s _ t run
  | accountCreate op => exact (sameGap_accountCreate valid).related s _ t run
  | accountCreateWithDelegation op =>
    exact (sameGap_accountCreateWithDelegation valid).related s _ t run
  | transfer op | transferToVesting op | transferToSavings op | transferFromSavings op
  | cancelTransferFromSavings op | convert op | claimAccount op | escrowTransfer op
  | escrowApprove op | escrowDispute op | limitOrderCreate op | limitOrderCancel op
  | createClaimedAccount op | claimRewardBalance op =>
    dsimp only [applyOperation] at run
    exact sameGap run
  | _ =>
    suffices same : Respects (Same ChainState.gap) (applyOperation producing _) from
      same.related s u t run
    exact respects_of_aspects (beside_applyOperation producing _) (of_decide_eq_true rfl)

theorem balances_applyOperation {producing : Bool} {op : Operation} (valid : op.validate = .ok ()) :
    Respects Balances (applyOperation producing op) := by
  have kept := @wellKept_applyOperation producing op valid
  have sound := @sound_applyOperation producing op valid
  have idle := @idle_applyOperation producing op valid
  exact balances_of_gap fun _ _ _ regular run => gap_applyOperation valid regular run

/-! ### Steps of a block -/

/-- Without dollars no least price can be formed, so the median stays as it is. -/
instance : Respects (Keeping ChainState.Idle) updateMedianFeed := by
  have recorded (medianFeed : Price) :
      Respects (Keeping ChainState.Idle) (recordFeed medianFeed) := by
    refine ⟨fun s _ t run idle => ?_⟩
    simp only [recordFeed, bind_eq_ok, get_eq_ok, lift_eq_ok, set_eq_ok, and_assoc, exists_and_left,
      exists_eq_left'] at run
    obtain ⟨least, made, rfl⟩ := run
    simp only [DynamicGlobalProperties.minPrice, idle.dollarless, except_bind_eq_ok,
      Price.make_eq_ok, ShareType.mul_eq_ok] at made
    obtain ⟨base, nothing, _, positive, _⟩ := made
    rw [Int64.lt_iff_toInt_lt, nothing] at positive
    exact absurd positive (by decide)
  dsimp only [updateMedianFeed]
  infer_instance

theorem balances_clearNullAccountBalance : Respects Balances clearNullAccountBalance where
  related s u t run regular := by
    obtain ⟨kept, changed, nothing⟩ := gap_clearNullAccountBalance run
    refine ⟨keeps run regular, ⟨?_, fun settled => ⟨keeps run settled.1, ?_⟩⟩, ?_⟩
    · change t.gap .dollar = s.gap .dollar
      rw [changed]
      simp
    · rw [changed, nothing regular settled.1 (congrFun settled.2 Pool.shares), Pi.single_zero,
        add_zero]
      exact settled.2
    · rw [changed]
      simp

theorem balances_processCommentCashout : Respects Balances processCommentCashout where
  related s u t run regular := by
    have firm : t.firmGap = s.firmGap := viewed run
    refine ⟨keeps run regular, ⟨congrArg Prod.fst firm, fun settled => ⟨keeps run settled.1, ?_⟩⟩,
      congrArg Prod.snd firm⟩
    rw [gap_processCommentCashout settled.1.unpriced run]
    exact settled.2

theorem balances_blockStep (step : BlockStep) : Respects Balances step.run := by
  cases step with
  | currentWitness block =>
    have kept (R : ChainState → ChainState → Prop) {aside : Aspect → Prop} [Overlooks R aside]
        [Aside aside (.part .dgp)] [Aside aside (.global .producer)] :
        Respects R (BlockStep.currentWitness block).run := overlooked_produced block.witness
    have regular := kept (Keeping ChainState.WellKept)
    have sound := kept (Keeping ChainState.Sound)
    have idle := kept (Keeping ChainState.Idle)
    have books := kept (Same ChainState.gap)
    exact balances_of_sameGap
  | nullAccountBalance => exact balances_clearNullAccountBalance
  | commentCashout => exact balances_processCommentCashout
  | vestingWithdrawals =>
    dsimp only [BlockStep.run]
    exact balances_of_gap fun s u t regular run =>
      (sound_processVestingWithdrawals.related s u t run regular.sound).2
  | _ =>
    dsimp only [BlockStep.run]
    exact balances_of_sameGap

/-! ### Whole runs -/

theorem balances_run {step : ChainStep} (validated : step.validated) : Respects Balances step.run := by
  have inserted (trx : SignedTransaction) : Respects Balances (insertTransaction trx) :=
    balances_of_sameGap
  exact respects_run_of_each validated (fun _ _ _ valid => balances_applyOperation valid)
    balances_blockStep

/-- A new chain is regular, and its books balance. -/
theorem regular_initGenesis (liquid dollar : ShareType) : (initGenesis liquid dollar).Regular := by
  refine ⟨⟨nofun, nofun, nofun, nofun⟩, fun account member => ?_, nofun⟩
  change account ∈ [_, _, _] at member
  simp only [List.mem_cons, List.not_mem_nil, or_false] at member
  rcases member with rfl | rfl | rfl <;> exact ⟨le_rfl, le_rfl, le_rfl⟩

theorem gap_initGenesis (liquid dollar : ShareType) : (initGenesis liquid dollar).gap = 0 := by
  have issued : (genesisProperties liquid dollar).issued =
      Pi.single Pool.liquid liquid.toInt + Pi.single Pool.dollar dollar.toInt := by
    funext pool
    cases pool with
    | liquid =>
      change liquid.toInt - (0 : ShareType).toInt - (0 : ShareType).toInt = _
      simp
    | dollar =>
      change dollar.toInt = _
      simp
    | shares | owedShares | owedLiquid => rfl
  funext pool
  change (genesisProperties liquid dollar).issued pool - (initGenesis liquid dollar).held pool = 0
  rw [issued]
  cases pool <;> simp [ChainState.held, initGenesis, genesisAccounts, Table.total, Table.empty,
    Account.held, RewardFund.held, Asset.value, AssetSymbol.pool, Account.make, genesisRewardFund]

theorem regular_of_reachable {liquid dollar : ShareType} {state : ChainState}
    (reached : Reachable (initGenesis liquid dollar) state) :
    state.Regular ∧ state.dollarGap = 0 := by
  refine @ReachableBy.invariant _ _ (fun state => state.Regular ∧ state.dollarGap = 0)
    ⟨regular_initGenesis liquid dollar, congrFun (gap_initGenesis liquid dollar) _⟩ ?_ _ reached
  rintro before after step ⟨regular, balanced⟩ validated _ run
  obtain ⟨stillRegular, kept⟩ := (balances_run validated).related before () after run regular
  exact ⟨stillRegular, kept.dollars.trans balanced⟩

/-- A chain that starts without dollars stays idle, and all of its books balance. -/
theorem settled_of_reachable {liquid : ShareType} {state : ChainState}
    (reached : Reachable (initGenesis liquid dollarInitialSupply) state) :
    state.Regular ∧ state.Idle ∧ state.gap = 0 := by
  refine @ReachableBy.invariant _ _ (fun state => state.Regular ∧ state.Idle ∧ state.gap = 0)
    ⟨regular_initGenesis liquid _, ⟨rfl, rfl, fun account member => ?_⟩, gap_initGenesis liquid _⟩
    ?_ _ reached
  · change account ∈ [_, _, _] at member
    simp only [List.mem_cons, List.not_mem_nil, or_false] at member
    rcases member with rfl | rfl | rfl <;> rfl
  · rintro before after step ⟨regular, settled⟩ validated _ run
    obtain ⟨stillRegular, kept⟩ := (balances_run validated).related before () after run regular
    exact ⟨stillRegular, kept.settled settled⟩

/-! ### The supplies -/

/-- The amount of an asset if it is of the given token. -/
def Asset.amountIn (asset : Asset) (symbol : AssetSymbol) : Int :=
  if asset.symbol = symbol then asset.amount.toInt else 0

theorem Asset.value_pool (asset : Asset) (symbol : AssetSymbol) :
    asset.value symbol.pool = asset.amountIn symbol := by
  obtain ⟨amount, kind⟩ := asset
  cases kind <;> cases symbol <;> rfl

/-- What is parked in orders, escrows, savings withdrawals and conversion requests. -/
def ChainState.parked (state : ChainState) (symbol : AssetSymbol) : Int :=
  (state.limitOrders.total fun order => order.amountForSale.amountIn symbol) +
    (state.escrows.total fun escrow => (Asset.mk escrow.liquidBalance .liquid).amountIn symbol +
      (Asset.mk escrow.dollarBalance .dollar).amountIn symbol + escrow.pendingFee.amountIn symbol) +
    (state.savingsWithdraws.total fun withdraw => withdraw.amount.amountIn symbol) +
    state.convertRequests.total fun request => request.amount.amountIn symbol

theorem ChainState.held_pool (state : ChainState) (symbol : AssetSymbol) :
    state.held symbol.pool = (state.accounts.total fun account => account.held symbol.pool) +
      state.parked symbol +
      state.rewardFunds.total fun fund => (Asset.mk fund.rewardBalance .liquid).amountIn symbol := by
  simp only [ChainState.held, ChainState.parked, Pi.add_apply, Table.total_apply, Escrow.held,
    RewardFund.held, Asset.value_pool]
  omega

/-- Rewards in vesting shares that are not claimed are held by accounts alone. -/
theorem ChainState.held_owed (state : ChainState) :
    state.held .owedShares =
        (state.accounts.total fun account => account.rewardVestingShareBalance.toInt) ∧
      state.held .owedLiquid =
        state.accounts.total fun account => account.rewardVestingLiquidBalance.toInt := by
  have none_ (asset : Asset) : asset.value .owedShares = 0 ∧ asset.value .owedLiquid = 0 := by
    obtain ⟨amount, symbol⟩ := asset
    cases symbol <;> exact ⟨rfl, rfl⟩
  constructor
  · simp only [ChainState.held, Pi.add_apply, Table.total_apply, Escrow.held, RewardFund.held, none_,
      add_zero, Table.total_eq_zero fun _ _ => rfl]
    rfl
  · simp only [ChainState.held, Pi.add_apply, Table.total_apply, Escrow.held, RewardFund.held, none_,
      add_zero, Table.total_eq_zero fun _ _ => rfl]
    rfl

/-- The first block of a chain, three seconds after genesis and without transactions. -/
def firstBlock : SignedBlock where
  previous := default
  timestamp := genesisTime + 3
  witness := AccountName.genesis
  transactionMerkleRoot := 0
  extensions := []
  transactions := []
  hash := 1
  signee := genesisPublicKey
  calculatedMerkleRoot := 0
  size := 100

theorem firstBlock_reached :
    ∃ state, applyBlock {} false firstBlock genesis = .ok () state ∧ Reachable genesis state := by
  have finished : Finishes (applyBlock {} false firstBlock) genesis := by decide +kernel
  obtain ⟨_, state, applied⟩ := finished
  exact ⟨state, applied, .step .start (.block {} false firstBlock) rfl trivial applied⟩

/-- Liquid tokens: the supply is what accounts hold, what is parked, and what the funds hold. -/
theorem liquidSupply_accounted {liquid : ShareType} {state : ChainState}
    (reached : Reachable (initGenesis liquid dollarInitialSupply) state) :
    state.dgp.currentLiquidSupply.toInt =
      (state.accounts.total fun account => account.liquidBalance.toInt +
        account.savingsLiquidBalance.toInt + account.rewardLiquidBalance.toInt) +
      state.parked .liquid +
      (state.rewardFunds.total fun fund => fund.rewardBalance.toInt) +
      state.dgp.totalVestingFundLiquid.toInt + state.dgp.totalRewardFundLiquid.toInt +
      state.dgp.pendingRewardedVestingLiquid.toInt := by
  obtain ⟨_, _, balanced⟩ := settled_of_reachable reached
  have liquids : state.dgp.issued .liquid = state.held .liquid :=
    sub_eq_zero.mp (congrFun balanced Pool.liquid)
  have owed : state.dgp.issued .owedLiquid = state.held .owedLiquid :=
    sub_eq_zero.mp (congrFun balanced Pool.owedLiquid)
  have split : (state.accounts.total fun account => account.held .liquid) =
      (state.accounts.total fun account => account.liquidBalance.toInt +
        account.savingsLiquidBalance.toInt + account.rewardLiquidBalance.toInt) +
      state.accounts.total fun account => account.rewardVestingLiquidBalance.toInt :=
    Table.total_add _ _ _
  have funds : (state.rewardFunds.total fun fund =>
      (Asset.mk fund.rewardBalance .liquid).amountIn .liquid) =
      state.rewardFunds.total fun fund => fund.rewardBalance.toInt := rfl
  rw [state.held_owed.2] at owed
  change _ = state.held AssetSymbol.liquid.pool at liquids
  rw [ChainState.held_pool, funds] at liquids
  change (state.accounts.total fun account => account.held AssetSymbol.liquid.pool) = _ at split
  rw [split] at liquids
  simp only [DynamicGlobalProperties.issued] at liquids owed
  omega

theorem liquidSupply_accounted_firstBlock :
    ∃ state, applyBlock {} false firstBlock genesis = .ok () state ∧
      state.dgp.currentLiquidSupply.toInt =
        (state.accounts.total fun account => account.liquidBalance.toInt +
          account.savingsLiquidBalance.toInt + account.rewardLiquidBalance.toInt) +
        state.parked .liquid +
        (state.rewardFunds.total fun fund => fund.rewardBalance.toInt) +
        state.dgp.totalVestingFundLiquid.toInt + state.dgp.totalRewardFundLiquid.toInt +
        state.dgp.pendingRewardedVestingLiquid.toInt := by
  obtain ⟨state, applied, reached⟩ := firstBlock_reached
  exact ⟨state, applied, liquidSupply_accounted reached⟩

/-- Vesting shares: those owned and those owed are the totals, and no account has a negative part
of them. -/
theorem vestingShares_accounted {liquid : ShareType} {state : ChainState}
    (reached : Reachable (initGenesis liquid dollarInitialSupply) state) :
    state.dgp.totalVestingShares.toInt + state.dgp.pendingRewardedVestingShares.toInt =
        (state.accounts.total fun account =>
          account.vestingShareBalance.toInt + account.rewardVestingShareBalance.toInt) ∧
      state.dgp.pendingRewardedVestingLiquid.toInt =
        (state.accounts.total fun account => account.rewardVestingLiquidBalance.toInt) ∧
      ∀ account ∈ state.accounts, 0 ≤ account.vestingShareBalance ∧
        0 ≤ account.rewardVestingShareBalance ∧ 0 ≤ account.rewardVestingLiquidBalance := by
  obtain ⟨regular, idle, balanced⟩ := settled_of_reachable reached
  have shares : state.dgp.issued .shares = state.held .shares :=
    sub_eq_zero.mp (congrFun balanced Pool.shares)
  have owedShares : state.dgp.issued .owedShares = state.held .owedShares :=
    sub_eq_zero.mp (congrFun balanced Pool.owedShares)
  have owedLiquid : state.dgp.issued .owedLiquid = state.held .owedLiquid :=
    sub_eq_zero.mp (congrFun balanced Pool.owedLiquid)
  rw [ChainState.held_shares regular.kept] at shares
  rw [state.held_owed.1] at owedShares
  rw [state.held_owed.2] at owedLiquid
  refine ⟨?_, owedLiquid, fun account member => ?_⟩
  · rw [Table.total_add, ← shares, ← owedShares]
    rfl
  · have nothing := idle.unowed account member
    have noShares : account.rewardVestingShareBalance = 0 := congrArg Prod.fst nothing
    have noLiquid : account.rewardVestingLiquidBalance = 0 := congrArg Prod.snd nothing
    rw [noShares, noLiquid, Int64.le_iff_toInt_le]
    exact ⟨(regular.sound.accounts account member).shares, by decide, by decide⟩

theorem vestingShares_accounted_firstBlock :
    ∃ state, applyBlock {} false firstBlock genesis = .ok () state ∧
      state.dgp.totalVestingShares.toInt + state.dgp.pendingRewardedVestingShares.toInt =
        state.accounts.total fun account =>
          account.vestingShareBalance.toInt + account.rewardVestingShareBalance.toInt := by
  obtain ⟨state, applied, reached⟩ := firstBlock_reached
  exact ⟨state, applied, (vestingShares_accounted reached).1⟩

/-- A change of a dollar balance raises the supply by exactly the interest it pays. -/
def IssuesInterestOnce (adjust : AccountName → Asset → Chain Unit) (balance : Account → ShareType)
    (s : ChainState) : Prop :=
  ∀ name delta t, adjust name ⟨delta, .dollar⟩ s = .ok () t →
    ∃ before after, s.accounts.find? name = some before ∧ t.accounts.find? name = some after ∧
      t.dgp.currentDollarSupply.toInt - s.dgp.currentDollarSupply.toInt =
        (balance after).toInt - (balance before).toInt - delta.toInt

theorem supply_adjustHolding {s t : ChainState} {holding current : DollarHolding}
    {delta : ShareType} {message : String}
    (run : adjustHolding holding delta message s = .ok current t) :
    t.accounts = s.accounts ∧ t.dgp.currentDollarSupply.toInt - s.dgp.currentDollarSupply.toInt =
      current.balance.toInt - holding.balance.toInt - delta.toInt := by
  obtain ⟨sameAccounts, changed⟩ := gap_adjustHolding run
  have sameHeld : t.held = s.held := by
    unfold ChainState.held
    rw [sameAccounts, keptField ChainState.limitOrders (fun _ => rfl) run,
      keptField ChainState.escrows (fun _ => rfl) run,
      keptField ChainState.savingsWithdraws (fun _ => rfl) run,
      keptField ChainState.convertRequests (fun _ => rfl) run,
      keptField ChainState.rewardFunds (fun _ => rfl) run]
  have dollars := congrFun changed Pool.dollar
  simp only [ChainState.gap, sameHeld, Pi.sub_apply, Pi.add_apply, Pi.single_eq_same,
    DynamicGlobalProperties.issued] at dollars
  exact ⟨sameAccounts, by omega⟩

theorem issuesInterestOnce_of_holding {adjust : AccountName → Asset → Chain Unit}
    {balance : Account → ShareType} (hold : Account → DollarHolding)
    (withHolding : Account → DollarHolding → Account) {message : String}
    (adjusts : ∀ name delta, adjust name ⟨delta, .dollar⟩ = (do
      let account ← getAccount name
      let holding ← adjustHolding (hold account) delta message
      putAccount (withHolding account holding)))
    (held : ∀ account, (hold account).balance = balance account)
    (changed : ∀ account holding, balance (withHolding account holding) = holding.balance ∧
      (withHolding account holding).name = account.name) (s : ChainState) :
    IssuesInterestOnce adjust balance s := by
  intro name delta t run
  rw [adjusts] at run
  simp only [bind_eq_ok, getAccount_eq_ok, and_assoc, exists_and_left, exists_eq_left'] at run
  obtain ⟨account, found, holding, middle, adjusted, put⟩ := run
  obtain ⟨sameAccounts, supply⟩ := supply_adjustHolding adjusted
  obtain rfl := modify_eq_ok.mp put
  obtain ⟨_, rfl⟩ := Table.find?_eq_some_iff.mp found
  obtain ⟨sameBalance, sameName⟩ := changed account holding
  refine ⟨account, withHolding account holding, found, ?_, ?_⟩
  · rw [← sameAccounts, ← sameName] at found
    rw [← sameName]
    exact Table.find?_replace_self found
  · rw [sameBalance, ← held]
    exact supply

/-- A chain that is started with the configured supplies never has a price, nor dollars, nor rewards
in shares: the first price would be compared with one that cannot be formed without dollars. -/
theorem dollars_never_appear {state : ChainState} (reached : Reachable genesis state) :
    state.feedHistory.currentMedianHistory = default ∧ state.dgp.currentDollarSupply = 0 ∧
      ∀ account ∈ state.accounts, account.rewardVestingShareBalance = 0 ∧
        account.rewardVestingLiquidBalance = 0 := by
  obtain ⟨_, idle, _⟩ := settled_of_reachable reached
  exact ⟨idle.unpriced, idle.dollarless, fun account member =>
    Prod.mk.inj (idle.unowed account member)⟩

theorem dollars_never_appear_firstBlock :
    ∃ state, applyBlock {} false firstBlock genesis = .ok () state ∧
      state.dgp.currentDollarSupply = 0 := by
  obtain ⟨state, applied, reached⟩ := firstBlock_reached
  exact ⟨state, applied, (dollars_never_appear reached).2.1⟩

end Zattera
