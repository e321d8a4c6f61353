/-
This file keeps the books through the steps of a block that complete earlier
requests: withdrawals from savings, escrows nobody ratified, and withdrawals of
vesting shares. The latter need sound accounts: an account withdraws no more
shares than it has, and no route takes more than the whole of a withdrawal.
-/

import Zattera.Proof.Invariants

namespace Zattera

open Program Faceted

set_option synthInstance.maxSize 4096

variable {account changed : Account} {toWithdraw : ShareType} {u : Unit} {name : AccountName}

/-! ### Withdrawals and expirations -/

instance : Respects (Same ChainState.gap) processSavingsWithdraws where
  related s _ t run := by
    have looped := get_bind_eq_ok.mp run
    refine forM_listed ChainState.savingsWithdraws (fun withdraw s t _ found turned => ?_)
      (Table.lists_of_perm_filter (List.perm_insertionSort _ _)) looped
    simp only [bind_eq_ok] at turned
    obtain ⟨_, paid, adjusted, _, counted, recorded, erased⟩ := turned
    have same := keptField ChainState.savingsWithdraws (fun _ => rfl) adjusted
    have still := keptField ChainState.savingsWithdraws (fun _ => rfl) recorded
    rw [← same, ← still] at found
    constructor
    · change t.gap = s.gap
      rw [gap_eraseSavingsWithdraw erased found, sameGap recorded, gap_adjustBalance adjusted]
      abel
    · intro key different
      rw [← modify_eq_ok.mp erased, Table.find?_erase_of_ne different, still, same]

instance : Respects (Same ChainState.gap) expireEscrowRatification where
  related s _ t run := by
    have looped := get_bind_eq_ok.mp run
    refine forM_listed ChainState.escrows (fun escrow s t _ found turned => ?_)
      (Table.lists_of_perm_filter (List.perm_insertionSort _ _)) looped
    refine ⟨gap_refundEscrow found turned, fun key different => ?_⟩
    simp only [refundEscrow, bind_eq_ok] at turned
    obtain ⟨_, _, liquid, _, _, dollars, _, _, fee, erased⟩ := turned
    rw [← modify_eq_ok.mp erased, Table.find?_erase_of_ne different,
      keptField ChainState.escrows (fun _ => rfl) fee,
      keptField ChainState.escrows (fun _ => rfl) dollars,
      keptField ChainState.escrows (fun _ => rfl) liquid]

/-! ### Withdrawals of vesting shares -/

section Withdrawals

variable {s t : ChainState}

/-- The part of a withdrawal that goes along a route, rounded down. -/
theorem WithdrawVestingRoute.deposit_eq_ok {route : WithdrawVestingRoute} {toDeposit : ShareType}
    (nonneg : 0 ≤ toWithdraw.toInt) (percent : route.percent ≤ 10000) :
    route.deposit toWithdraw = .ok toDeposit ↔
      toDeposit.toInt = toWithdraw.toInt * route.percent / 10000 := by
  have upper := toWithdraw.toInt_lt
  have product : (UInt128.ofInt64 toWithdraw * BitVec.ofNat 128 route.percent).toNat =
      toWithdraw.toInt.toNat * route.percent := UInt128.toNat_ofInt64_mul nonneg (by omega)
  have quotient : (UInt128.ofInt64 toWithdraw * BitVec.ofNat 128 route.percent / 10000).toNat =
      toWithdraw.toInt.toNat * route.percent / 10000 := by
    rw [BitVec.toNat_udiv, product]
    rfl
  have small : toWithdraw.toInt.toNat * route.percent / 10000 ≤ toWithdraw.toInt.toNat := by
    refine Nat.div_le_of_le_mul ?_
    rw [Nat.mul_comm]
    exact Nat.mul_le_mul_right _ percent
  have cast : ((toWithdraw.toInt.toNat * route.percent / 10000 : Nat) : Int) =
      toWithdraw.toInt * route.percent / 10000 := by
    push_cast
    rw [Int.toNat_of_nonneg nonneg]
  unfold WithdrawVestingRoute.deposit
  rw [UInt128.toShareType_eq_ok, quotient, ← cast, ← Int64.toInt_inj,
    Int64.toInt_ofNat_of_lt (by omega)]
  exact ⟨fun made => made.2, fun equal => ⟨by omega, equal⟩⟩

theorem WithdrawVestingRoute.deposit_bounds {route : WithdrawVestingRoute} {toDeposit : ShareType}
    (nonneg : 0 ≤ toWithdraw.toInt) (percent : route.percent ≤ 10000)
    (made : route.deposit toWithdraw = .ok toDeposit) :
    0 ≤ toDeposit.toInt ∧ toDeposit.toInt ≤ toWithdraw.toInt := by
  rw [deposit_eq_ok nonneg percent] at made
  rw [made]
  constructor
  · exact Int.ediv_nonneg (Int.mul_nonneg nonneg (by omega)) (by omega)
  · refine Int.ediv_le_of_le_mul (by omega) (Int.mul_le_mul_of_nonneg_left ?_ nonneg)
    omega

/-- The books after the first pass are short of the shares it deposits. -/
theorem gap_depositVests {deposited total : ShareType} {routes : List WithdrawVestingRoute}
    (nonneg : 0 ≤ toWithdraw.toInt) (percents : ∀ route ∈ routes, route.percent ≤ 10000)
    (run : depositVests toWithdraw routes deposited s = .ok total t) :
    deposited.toInt ≤ total.toInt ∧
      t.gap = s.gap - Pi.single Pool.shares (total.toInt - deposited.toInt) := by
  induction routes generalizing s deposited with
  | nil =>
    obtain ⟨rfl, rfl⟩ := pure_eq_ok.mp run
    simp
  | cons route rest inductionHypothesis =>
    have further := fun route member => percents route (List.mem_cons_of_mem _ member)
    unfold depositVests at run
    split at run
    · simp only [bind_eq_ok, lift_eq_ok, ShareType.add_eq_ok, and_assoc, exists_and_left,
        exists_eq_left'] at run
      obtain ⟨toDeposit, computed, soFar, exact_, _, middle, deposit, looped⟩ := run
      have bounds := WithdrawVestingRoute.deposit_bounds nonneg
        (percents route List.mem_cons_self) computed
      have moved : middle.gap = s.gap - Pi.single Pool.shares toDeposit.toInt := by
        rcases whenever_eq_ok.mp deposit with ⟨_, deposit⟩ | ⟨none, rfl⟩
        · obtain ⟨_, _, added, voted⟩ := bind_eq_ok.mp deposit
          rw [sameGap voted]
          refine gap_modifyAccount added fun account changed _ made => ?_
          simp only [except_bind_eq_ok, ShareType.add_eq_ok, except_pure_eq_ok] at made
          obtain ⟨balance, sum, rfl⟩ := made
          refine ⟨rfl, ?_⟩
          rw [held_vestingShareBalance, sum, add_sub_cancel_left]
        · rw [Int64.lt_iff_toInt_lt] at none
          have zero : toDeposit.toInt = 0 := le_antisymm (not_lt.mp none) bounds.1
          rw [zero, Pi.single_zero, sub_zero]
      obtain ⟨later, changed⟩ := inductionHypothesis further looped
      refine ⟨by omega, ?_⟩
      rw [changed, moved, exact_, sub_sub, ← Pi.single_add]
      congr 2
      omega
    · exact inductionHypothesis further run

theorem gap_takeFromFund {liquid shares : ShareType} (run : takeFromFund liquid shares s = .ok u t) :
    t.gap = s.gap + (Asset.mk liquid .liquid).value - Pi.single Pool.shares shares.toInt := by
  obtain ⟨dgp, made, rfl⟩ := modifyDgp_eq_ok.mp run
  simp only [except_bind_eq_ok, ShareType.sub_eq_ok, except_pure_eq_ok] at made
  obtain ⟨fund, exactFund, total, exactTotal, rfl⟩ := made
  rw [gap_setDgp, add_sub_assoc]
  congr 1
  funext pool
  cases pool <;> simp [DynamicGlobalProperties.issued, Asset.value, AssetSymbol.pool, exactFund,
    exactTotal]

/-- Adding an asset to the liquid balance. -/
theorem held_addLiquid {liquid balance : Asset}
    (added : (Asset.mk account.liquidBalance .liquid).add liquid = .ok balance) :
    liquid.symbol = .liquid ∧
      ({ account with liquidBalance := balance.amount } : Account).held =
        account.held + liquid.value := by
  simp only [Asset.add, Asset.sameSymbol, except_bind_eq_ok, ensure_eq_ok, except_pure_eq_ok,
    ShareType.add_eq_ok] at added
  obtain ⟨_, isLiquid, amount, exact_, rfl⟩ := added
  refine ⟨isLiquid.symm, ?_⟩
  rw [held_liquidBalance, exact_, add_sub_cancel_left, Asset.value, ← isLiquid, AssetSymbol.pool]

theorem gap_addLiquid {liquid : Asset} (run : addLiquid name liquid s = .ok u t) :
    liquid.symbol = .liquid ∧ t.gap = s.gap - liquid.value := by
  obtain ⟨account, changed, found, made, rfl⟩ := modifyAccount_eq_ok.mp run
  obtain ⟨_, rfl⟩ := Table.find?_eq_some_iff.mp found
  obtain ⟨balance, added, made⟩ := except_bind_eq_ok.mp made
  obtain rfl := except_pure_eq_ok.mp made
  obtain ⟨isLiquid, held⟩ := held_addLiquid added
  exact ⟨isLiquid, gap_putAccount (modify_eq_ok.mpr rfl) found held⟩

/-- The second pass takes shares out of the fund and pays their value. -/
theorem gap_depositLiquid {deposited total : ShareType} {routes : List WithdrawVestingRoute}
    (nonneg : 0 ≤ toWithdraw.toInt) (percents : ∀ route ∈ routes, route.percent ≤ 10000)
    (run : depositLiquid toWithdraw routes deposited s = .ok total t) :
    deposited.toInt ≤ total.toInt ∧
      t.gap = s.gap - Pi.single Pool.shares (total.toInt - deposited.toInt) := by
  induction routes generalizing s deposited with
  | nil =>
    obtain ⟨rfl, rfl⟩ := pure_eq_ok.mp run
    simp
  | cons route rest inductionHypothesis =>
    have further := fun route member => percents route (List.mem_cons_of_mem _ member)
    unfold depositLiquid at run
    split at run
    · simp only [bind_eq_ok, discard_eq_ok, getAccount_eq_ok, lift_eq_ok, ShareType.add_eq_ok,
        and_assoc, exists_and_left, exists_eq_left', exists_and_right] at run
      obtain ⟨_, _, toDeposit, computed, soFar, exact_, converted, _, valued, _, middle, deposit,
        looped⟩ := run
      obtain rfl := unmoved valued
      have bounds := WithdrawVestingRoute.deposit_bounds nonneg
        (percents route List.mem_cons_self) computed
      have moved : middle.gap = s.gap - Pi.single Pool.shares toDeposit.toInt := by
        rcases whenever_eq_ok.mp deposit with ⟨_, deposit⟩ | ⟨none, rfl⟩
        · obtain ⟨_, _, added, taken⟩ := bind_eq_ok.mp deposit
          obtain ⟨isLiquid, paid⟩ := gap_addLiquid added
          rw [gap_takeFromFund taken, paid, Asset.value_of_symbol isLiquid]
          abel
        · rw [Int64.lt_iff_toInt_lt] at none
          have zero : toDeposit.toInt = 0 := le_antisymm (not_lt.mp none) bounds.1
          rw [zero, Pi.single_zero, sub_zero]
      obtain ⟨later, changed⟩ := inductionHypothesis further looped
      refine ⟨by omega, ?_⟩
      rw [changed, moved, exact_, sub_sub, ← Pi.single_add]
      congr 2
      omega
    · exact inductionHypothesis further run

theorem held_afterWithdrawal {converted : Asset}
    (made : account.afterWithdrawal toWithdraw converted = .ok changed) :
    converted.symbol = .liquid ∧ changed.name = account.name ∧
      changed.held = account.held +
        (converted.value - Pi.single Pool.shares toWithdraw.toInt) := by
  simp only [Account.afterWithdrawal, except_bind_eq_ok, ShareType.sub_eq_ok, ShareType.add_eq_ok,
    except_pure_eq_ok] at made
  obtain ⟨shares, exact_, balance, added, _, _, rfl⟩ := made
  obtain ⟨isLiquid, held⟩ := held_addLiquid added
  refine ⟨isLiquid, rfl, ?_⟩
  have split := held_vestingShareBalance { account with liquidBalance := balance.amount } shares
  rw [held, exact_, sub_sub_cancel_left, Pi.single_neg, add_assoc, ← sub_eq_add_neg] at split
  exact split

theorem Account.dueWithdrawal_nonneg (sound : account.Sound)
    (made : account.dueWithdrawal = .ok toWithdraw) :
    0 ≤ toWithdraw.toInt ∧ toWithdraw.toInt ≤ account.vestingShareBalance.toInt := by
  obtain ⟨shares, rate, asked⟩ := sound
  simp only [Account.dueWithdrawal, except_bind_eq_ok, except_pure_eq_ok] at made
  obtain ⟨due, made, rfl⟩ := made
  have nonneg : 0 ≤ due.toInt := by
    simp only [Account.askedWithdrawal, except_bind_eq_ok] at made
    obtain ⟨left, _, made⟩ := made
    split at made
    · unfold ShareType.mod at made
      split at made
      · cases made
      · split at made
        · cases made
        · rw [ShareType.checked_eq_ok] at made
          rw [made]
          exact Int.tmod_nonneg _ asked
    · obtain rfl := except_pure_eq_ok.mp made
      exact rate
  split
  · next less =>
    rw [Int64.lt_iff_toInt_lt] at less
    exact ⟨nonneg, less.le⟩
  · exact ⟨shares, le_rfl⟩

/-- A withdrawal, step by step: along the routes, first in shares and then in liquid tokens, and
the rest to the account itself. -/
theorem withdrawFrom_eq_ok (sound : s.Sound) (found : s.accounts.find? account.name = some account)
    (run : withdrawFrom account s = .ok u t) :
    ∃ (toWithdraw asVests asLiquid toConvert : ShareType) (converted : Asset)
      (vested paid credited funded : ChainState),
      0 ≤ toWithdraw.toInt ∧ toWithdraw.toInt ≤ account.vestingShareBalance.toInt ∧
      (∀ route ∈ s.routesFrom account.name, route.percent ≤ 10000) ∧
      depositVests toWithdraw (s.routesFrom account.name) 0 s = .ok asVests vested ∧
      depositLiquid toWithdraw (s.routesFrom account.name) 0 vested = .ok asLiquid paid ∧
      toConvert.toInt = toWithdraw.toInt - asLiquid.toInt - asVests.toInt ∧ 0 ≤ toConvert.toInt ∧
      convertVests toConvert paid = .ok converted paid ∧
      modifyAccount account.name (fun account => account.afterWithdrawal toWithdraw converted) paid =
        .ok () credited ∧
      takeFromFund converted.amount toConvert credited = .ok () funded ∧
      (whenever (0 < toWithdraw) do
        let taken ← toWithdraw.neg
        adjustProxiedWitnessVotes account.name taken : Chain Unit) funded = .ok () t := by
  simp only [withdrawFrom, bind_eq_ok, lift_eq_ok, get_eq_ok, require_eq_ok, ShareType.sub_eq_ok,
    and_assoc, exists_and_left, exists_eq_left', exists_const] at run
  obtain ⟨toWithdraw, due, asVests, vested, deposits, asLiquid, paid, payments, kept, exactKept,
    toConvert, exactConvert, remains, converted, _, valued, _, credited, changed, _, funded, taken,
    voted⟩ := run
  obtain rfl := unmoved valued
  obtain ⟨nonneg, limited⟩ :=
    Account.dueWithdrawal_nonneg (sound.accounts account (Table.mem_of_find? found)) due
  rw [exactKept] at exactConvert
  rw [Int64.le_iff_toInt_le] at remains
  exact ⟨toWithdraw, asVests, asLiquid, toConvert, converted, vested, paid, credited, funded, nonneg,
    limited, fun route member => sound.routes route
      (List.mem_of_mem_filter ((List.mem_insertionSort _).mp member)), deposits, payments,
    exactConvert, remains, valued, changed, taken, voted⟩

theorem gap_withdrawFrom (sound : s.Sound) (found : s.accounts.find? account.name = some account)
    (run : withdrawFrom account s = .ok u t) : t.gap = s.gap := by
  obtain ⟨toWithdraw, asVests, asLiquid, toConvert, converted, vested, paid, credited, funded, nonneg,
    _, percents, deposits, payments, exactConvert, _, _, changed, taken, voted⟩ :=
    withdrawFrom_eq_ok sound found run
  obtain ⟨_, _, _, made, _⟩ := modifyAccount_eq_ok.mp changed
  have isLiquid := (held_afterWithdrawal made).1
  rw [sameGap voted, gap_takeFromFund taken,
    gap_modifyAccount changed fun _ _ _ made => (held_afterWithdrawal made).2,
    (gap_depositLiquid nonneg percents payments).2, (gap_depositVests nonneg percents deposits).2,
    Asset.value_of_symbol isLiquid, exactConvert]
  simp only [Int64.toInt_zero, sub_zero, Pi.single_sub]
  abel

end Withdrawals

/-! ### Accounts stay sound -/

/-- Adding shares to an account. -/
theorem sum_of_addShares {shares : ShareType} (made : (do
      let balance ← account.vestingShareBalance.add shares
      return { account with vestingShareBalance := balance }) = Except.ok (ε := ChainError) changed) :
    ∃ balance : ShareType, balance.toInt = account.vestingShareBalance.toInt + shares.toInt ∧
      changed = { account with vestingShareBalance := balance } := by
  simp only [except_bind_eq_ok, ShareType.add_eq_ok, except_pure_eq_ok] at made
  obtain ⟨balance, exact_, rfl⟩ := made
  exact ⟨balance, exact_, rfl⟩

instance (toWithdraw : ShareType) (routes : List WithdrawVestingRoute) (deposited : ShareType) :
    Respects (Keeping ChainState.Sound) (depositVests toWithdraw routes deposited) := by
  refine respects_depositVests fun name shares positive =>
    sound_modifyAccount fun account changed made sound => ?_
  obtain ⟨balance, exact_, rfl⟩ := sum_of_addShares made
  rw [Int64.lt_iff_toInt_lt] at positive
  refine ⟨?_, sound.rate, sound.asked⟩
  change 0 ≤ balance.toInt
  rw [exact_]
  exact Int.add_nonneg sound.shares positive.le

/-- The account of that name is still there and has not lost shares. -/
def Grows (name : AccountName) (s t : ChainState) : Prop :=
  ∀ account, s.accounts.find? name = some account →
    ∃ after, t.accounts.find? name = some after ∧
      account.vestingShareBalance.toInt ≤ after.vestingShareBalance.toInt

instance (name : AccountName) : Std.Refl (Grows name) := ⟨fun _ account found =>
  ⟨account, found, le_rfl⟩⟩

instance (name : AccountName) : IsTrans ChainState (Grows name) where
  trans s u t first second account found := by
    obtain ⟨middle, found, less⟩ := first account found
    obtain ⟨after, found, further⟩ := second middle found
    exact ⟨after, found, less.trans further⟩

theorem grows_modifyAccount {other : AccountName} {change : Account → Except ChainError Account}
    (grown : ∀ account changed, change account = .ok changed → changed.name = account.name ∧
      account.vestingShareBalance.toInt ≤ changed.vestingShareBalance.toInt) :
    Respects (Grows name) (modifyAccount other change) := by
  refine respects_modifyAccount fun s account changed found made current again => ?_
  obtain ⟨sameName, less⟩ := grown account changed made
  obtain ⟨_, rfl⟩ := Table.find?_eq_some_iff.mp found
  by_cases same : name = changed.name
  · subst same
    rw [sameName, found, Option.some.injEq] at again
    subst again
    rw [← sameName] at found
    exact ⟨changed, Table.find?_replace_self found, less⟩
  · exact ⟨current, (Table.find?_replace_of_ne same).trans again, le_rfl⟩

section Growth

variable {name : AccountName}

instance : Overlooks (Grows name) (Either (Covered (.dgp :: Part.records))
    (Among [.part .accounts, .account .liquid, .account .proxied])) where
  holds {s t} same account found := by
    obtain ⟨after, again, agree⟩ := Table.find?_of_facetOf (same .names (by decide)) found
    have shares := agree .shares (same (.account .shares) (by decide))
    exact ⟨after, again, (congrArg (fun account : Account => account.vestingShareBalance.toInt)
      shares :).ge⟩

instance (toWithdraw : ShareType) (routes : List WithdrawVestingRoute) (deposited : ShareType) :
    Respects (Grows name) (depositVests toWithdraw routes deposited) := by
  refine respects_depositVests fun other shares positive =>
    grows_modifyAccount fun account changed made => ?_
  obtain ⟨balance, exact_, rfl⟩ := sum_of_addShares made
  rw [Int64.lt_iff_toInt_lt] at positive
  refine ⟨rfl, ?_⟩
  change _ ≤ balance.toInt
  rw [exact_]
  exact Int.le_add_of_nonneg_right positive.le

end Growth

theorem Account.afterWithdrawal_sound {converted : Asset}
    (made : account.afterWithdrawal toWithdraw converted = .ok changed) (sound : account.Sound)
    (enough : toWithdraw.toInt ≤ account.vestingShareBalance.toInt) : changed.Sound := by
  simp only [Account.afterWithdrawal, except_bind_eq_ok, ShareType.sub_eq_ok,
    except_pure_eq_ok] at made
  obtain ⟨shares, exact_, _, _, _, _, rfl⟩ := made
  refine ⟨?_, ?_, sound.asked⟩
  · change 0 ≤ shares.toInt
    omega
  · change 0 ≤ (ite _ _ _ : ShareType).toInt
    split
    · exact le_rfl
    · exact sound.rate

/-- A withdrawal takes no more than the account has, whatever is deposited before. -/
theorem sound_withdrawFrom {s t : ChainState} (sound : s.Sound)
    (found : s.accounts.find? account.name = some account) (run : withdrawFrom account s = .ok u t) :
    t.Sound := by
  obtain ⟨toWithdraw, asVests, asLiquid, toConvert, converted, vested, paid, credited, funded, _,
    limited, _, deposits, payments, _, _, _, changed, taken, voted⟩ := withdrawFrom_eq_ok sound found run
  have grows : Grows account.name s paid :=
    IsTrans.trans s vested paid (Respects.related s asVests vested deposits)
      (Respects.related vested asLiquid paid payments)
  obtain ⟨current, again, less⟩ := grows account found
  refine keeps voted (keeps taken ?_)
  have paidSound : paid.Sound := keeps payments (keeps deposits sound)
  obtain ⟨_, after, foundNow, made, rfl⟩ := modifyAccount_eq_ok.mp changed
  obtain rfl := Option.some.inj (again.symm.trans foundNow)
  refine ⟨Table.forall_mem_replace paidSound.accounts ?_, paidSound.routes⟩
  exact Account.afterWithdrawal_sound made (paidSound.accounts current (Table.mem_of_find? again))
    (limited.trans less)

/-- The loop over due withdrawals is at its end, or withdraws from the next account. -/
theorem withdrawEach_eq_ok {s t : ChainState} {fuel : Nat}
    (run : withdrawEach fuel (some name) s = .ok u t) :
    ∃ account, s.accounts.find? name = some account ∧
      (s = t ∨ ∃ further v middle, fuel = further + 1 ∧ withdrawFrom account s = .ok v middle ∧
        withdrawEach further ((s.withdrawalAfter account).map Account.name) middle = .ok u t) := by
  simp only [withdrawEach, bind_eq_ok, getAccount_eq_ok, get_eq_ok, and_assoc, exists_and_left,
    exists_eq_left'] at run
  obtain ⟨account, found, run⟩ := run
  refine ⟨account, found, ?_⟩
  split at run
  · cases fuel with
    | zero => exact (throw_eq_ok.mp run).elim
    | succ further =>
      obtain ⟨_, middle, withdrawn, looped⟩ := bind_eq_ok.mp run
      exact Or.inr ⟨further, _, middle, rfl, withdrawn, looped⟩
  · exact Or.inl (pure_eq_ok.mp run).2

/-- The rule for that loop: each withdrawal starts from an account as it is stored. -/
theorem respects_withdrawals {Inv : ChainState → Prop} {R : ChainState → ChainState → Prop}
    [Std.Refl R] [IsTrans ChainState R]
    (each : ∀ account s t u, Inv s → s.accounts.find? account.name = some account →
      withdrawFrom account s = .ok u t → Inv t ∧ R s t) :
    Respects (Under Inv R) processVestingWithdrawals := by
  have loop (fuel : Nat) (next : Option AccountName) :
      Respects (Under Inv R) (withdrawEach fuel next) := by
    refine ⟨fun s _ t run holds => ?_⟩
    induction fuel generalizing s next with
    | zero =>
      cases next with
      | none =>
        obtain ⟨_, rfl⟩ := pure_eq_ok.mp run
        exact ⟨holds, refl s⟩
      | some name =>
        obtain ⟨account, found, rfl | ⟨_, _, _, impossible, _⟩⟩ := withdrawEach_eq_ok run
        · exact ⟨holds, refl s⟩
        · cases impossible
    | succ fuel inductionHypothesis =>
      cases next with
      | none =>
        obtain ⟨_, rfl⟩ := pure_eq_ok.mp run
        exact ⟨holds, refl s⟩
      | some name =>
        obtain ⟨account, found, rfl | ⟨_, _, middle, same, withdrawn, looped⟩⟩ :=
          withdrawEach_eq_ok run
        · exact ⟨holds, refl s⟩
        · cases same
          obtain ⟨_, rfl⟩ := Table.find?_eq_some_iff.mp found
          obtain ⟨holdsThen, first⟩ := each account s middle _ holds found withdrawn
          obtain ⟨holdsLast, rest⟩ := inductionHypothesis _ middle looped holdsThen
          exact ⟨holdsLast, IsTrans.trans s middle t first rest⟩
  dsimp only [processVestingWithdrawals]
  infer_instance

/-- Accounts stay sound in withdrawals, and with them the books are kept. -/
theorem sound_processVestingWithdrawals :
    Respects (Under ChainState.Sound (Same ChainState.gap)) processVestingWithdrawals :=
  respects_withdrawals fun _ _ _ _ sound found run =>
    ⟨sound_withdrawFrom sound found run, gap_withdrawFrom sound found run⟩

instance : Respects (Keeping ChainState.Sound) processVestingWithdrawals :=
  sound_processVestingWithdrawals.mono fun _ _ moved sound => (moved sound).1

end Zattera
