/-
This file proves that the bandwidth of an account is compared exactly wherever
the products it is compared by fit in 128 bits. The reserve ratio stays between
one and its maximum in every state the plugin reaches and no average is ever
negative, so the right product always fits. The left one does not have to: the
block size limit has no upper bound, and a product that wraps denies bandwidth
to an account that owns enough of the chain.
-/

import Mathlib.Tactic.Linarith
import Zattera.Chain.Genesis
import Zattera.Lib.Handler
import Zattera.Plugin.Witness

namespace Zattera

open Program

/-! ### Arithmetic that does not wrap -/

section Machine

variable {a b : Int64}

theorem toInt_add_of_fits (lower : -9223372036854775808 ≤ a.toInt + b.toInt)
    (upper : a.toInt + b.toInt < 9223372036854775808) : (a + b).toInt = a.toInt + b.toInt := by
  rw [Int64.toInt_add]
  exact Int.bmod_eq_of_le (by omega) (by omega)

theorem toInt_sub_of_fits (lower : -9223372036854775808 ≤ a.toInt - b.toInt)
    (upper : a.toInt - b.toInt < 9223372036854775808) : (a - b).toInt = a.toInt - b.toInt := by
  rw [Int64.toInt_sub]
  exact Int.bmod_eq_of_le (by omega) (by omega)

theorem toInt_mul_of_fits (lower : -9223372036854775808 ≤ a.toInt * b.toInt)
    (upper : a.toInt * b.toInt < 9223372036854775808) : (a * b).toInt = a.toInt * b.toInt := by
  rw [Int64.toInt_mul]
  exact Int.bmod_eq_of_le (by omega) (by omega)

theorem toInt_div_of_lt (above : -9223372036854775808 < a.toInt) :
    (a / b).toInt = a.toInt.tdiv b.toInt := by
  refine Int64.toInt_div_of_ne_left a b fun least => ?_
  rw [least] at above
  exact absurd above (by decide)

theorem toInt_max : (max a b).toInt = max a.toInt b.toInt := by
  change Int64.toInt (if a ≤ b then b else a) = _
  simp only [Int64.le_iff_toInt_le]
  split <;> omega

end Machine

/-- A part `d / (d + k)` of a ratio is no more than the ratio. -/
theorem tdiv_part {r d k : Int} (ratio : 0 ≤ r) (distance : 0 ≤ d) (positive : 0 < k) :
    0 ≤ (r * d).tdiv (d + k) ∧ (r * d).tdiv (d + k) ≤ r := by
  have product : 0 ≤ r * d := Int.mul_nonneg ratio distance
  rw [Int.tdiv_eq_ediv_of_nonneg product]
  refine ⟨Int.ediv_nonneg product (by omega), Int.ediv_le_of_le_mul (by omega) ?_⟩
  exact Int.mul_le_mul_of_nonneg_left (by omega) ratio

/-! ### The reserve ratio -/

theorem usageDistance_bounds (averageBlockSize : Int32) {maximum : Nat} (lower : 65536 ≤ maximum)
    (upper : maximum < 4294967296) :
    -2000000000 ≤ (usageDistance averageBlockSize (.ofNat maximum)).toInt ∧
      (usageDistance averageBlockSize (.ofNat maximum)).toInt ≤ 2000000000 := by
  have smallest := averageBlockSize.le_toInt
  have largest := averageBlockSize.toInt_lt
  have isMaximum : (Int64.ofNat maximum).toInt = maximum := Int64.toInt_ofNat_of_lt (by omega)
  have isQuarter : (Int64.ofNat maximum / 4).toInt = (maximum : Int) / 4 := by
    rw [toInt_div_of_lt (by omega), isMaximum, Int.tdiv_eq_ediv_of_nonneg (by omega)]
    rfl
  have isDifference : (averageBlockSize.toInt64 - Int64.ofNat maximum / 4).toInt =
      averageBlockSize.toInt - (maximum : Int) / 4 := by
    rw [toInt_sub_of_fits, Int32.toInt_toInt64, isQuarter]
    all_goals
      rw [Int32.toInt_toInt64, isQuarter]
      omega
  have isTenThousand : (10000 : Int64).toInt = 10000 := rfl
  have isScaled : ((averageBlockSize.toInt64 - Int64.ofNat maximum / 4) * 10000).toInt =
      (averageBlockSize.toInt - (maximum : Int) / 4) * 10000 := by
    rw [toInt_mul_of_fits, isDifference, isTenThousand]
    all_goals
      rw [isDifference, isTenThousand]
      omega
  -- The quarter is at least 16384, which keeps the quotient small.
  have small : (usageDistance averageBlockSize (.ofNat maximum)).toInt.natAbs ≤ 2000000000 := by
    unfold usageDistance
    rw [toInt_div_of_lt (by omega), isScaled, isQuarter, Int.natAbs_tdiv]
    refine Nat.div_le_of_le_mul ?_
    calc ((averageBlockSize.toInt - (maximum : Int) / 4) * 10000).natAbs
        ≤ 16384 * 2000000000 := by omega
      _ ≤ ((maximum : Int) / 4).natAbs * 2000000000 := Nat.mul_le_mul_right _ (by omega)
  omega

/-- The ratio is between one and `ZATTERA_MAX_RESERVE_RATIO`. -/
def Moderate (ratio : Int64) : Prop := 10000 ≤ ratio.toInt ∧ ratio.toInt ≤ 200000000

theorem moderate_adjustedReserveRatio {ratio distance : Int64} (moderate : Moderate ratio)
    (lower : -2000000000 ≤ distance.toInt) (upper : distance.toInt ≤ 2000000000) :
    Moderate (adjustedReserveRatio ratio distance) := by
  obtain ⟨least, most⟩ := moderate
  have isTenThousand : (10000 : Int64).toInt = 10000 := rfl
  have isMaximum : (20000 * 10000 : Int64).toInt = 200000000 := rfl
  have isLeast : (5000 : Int64).toInt = 5000 := rfl
  have isZero : (0 : Int64).toInt = 0 := rfl
  have productLower : -400000000000000000 ≤ ratio.toInt * distance.toInt := by nlinarith
  have productUpper : ratio.toInt * distance.toInt ≤ 400000000000000000 := by nlinarith
  have isProduct : (ratio * distance).toInt = ratio.toInt * distance.toInt :=
    toInt_mul_of_fits (by omega) (by omega)
  unfold adjustedReserveRatio
  simp only [Int64.lt_iff_toInt_lt, isZero, isTenThousand, isMaximum]
  split
  · next above =>
    have isDivisor : (distance + 10000).toInt = distance.toInt + 10000 := by
      rw [toInt_add_of_fits, isTenThousand] <;> rw [isTenThousand] <;> omega
    have part := tdiv_part (k := 10000) (by omega : 0 ≤ ratio.toInt) (Int.le_of_lt above) (by decide)
    have isPart : (ratio * distance / (distance + 10000)).toInt =
        (ratio.toInt * distance.toInt).tdiv (distance.toInt + 10000) := by
      rw [toInt_div_of_lt (by omega), isProduct, isDivisor]
    have isLowered : (ratio - ratio * distance / (distance + 10000)).toInt =
        ratio.toInt - (ratio.toInt * distance.toInt).tdiv (distance.toInt + 10000) := by
      rw [toInt_sub_of_fits, isPart] <;> rw [isPart] <;> omega
    split
    · exact ⟨by decide, by decide⟩
    · next kept =>
      rw [isLowered] at kept
      exact ⟨by omega, by omega⟩
  · next below =>
    have isDivisor : (distance - 10000).toInt = distance.toInt - 10000 := by
      rw [toInt_sub_of_fits, isTenThousand] <;> rw [isTenThousand] <;> omega
    have part := tdiv_part (k := 10000) (d := -distance.toInt) (by omega : 0 ≤ ratio.toInt)
      (by omega) (by decide)
    rw [← Int.neg_tdiv_neg, Int.mul_neg, Int.neg_neg, Int.neg_add, Int.neg_neg] at part
    have isPart : (ratio * distance / (distance - 10000)).toInt =
        (ratio.toInt * distance.toInt).tdiv (distance.toInt + -10000) := by
      rw [toInt_div_of_lt (by omega), isProduct, isDivisor, Int.sub_eq_add_neg]
    have isIncrement := toInt_max (a := 5000) (b := ratio * distance / (distance - 10000))
    rw [isLeast, isPart] at isIncrement
    have isRaised := toInt_add_of_fits (a := ratio)
      (b := max 5000 (ratio * distance / (distance - 10000))) (by omega) (by omega)
    split
    · exact ⟨by decide, by decide⟩
    · next kept =>
      rw [isRaised] at kept
      exact ⟨by omega, by omega⟩

theorem moderate_updated {r : ReserveRatio} (moderate : Moderate r.currentReserveRatio)
    {props : DynamicGlobalProperties} (blockSize : Int32)
    (voted : 65536 ≤ props.maximumBlockSize ∧ props.maximumBlockSize < 4294967296) :
    Moderate (r.updated props blockSize).currentReserveRatio := by
  unfold ReserveRatio.updated
  split
  · obtain ⟨lower, upper⟩ := usageDistance_bounds ((99 * r.averageBlockSize + blockSize) / 100)
      voted.1 voted.2
    exact moderate_adjustedReserveRatio moderate lower upper
  · exact moderate

/-! ### The average of an account -/

theorem nonneg_decayedBandwidth {average decayed : ShareType} {deltaTime : Int}
    (nonneg : 0 ≤ average.toInt) (forward : 0 ≤ deltaTime)
    (made : decayedBandwidth average deltaTime = .ok decayed) : 0 ≤ decayed.toInt := by
  unfold decayedBandwidth at made
  split at made
  · cases made
    decide
  · next recent =>
    obtain ⟨_, rfl⟩ := UInt128.toShareType_eq_ok.mp made
    have upper := average.toInt_lt
    have isLeft : BitVec.ofInt 128 (604800 - deltaTime) =
        BitVec.ofNat 128 (604800 - deltaTime).toNat := by
      rw [← BitVec.ofInt_natCast, Int.toNat_of_nonneg (by omega)]
    have isWindow : BitVec.toNat (604800 : UInt128) = 604800 := rfl
    have shrinks : average.toInt.toNat * (604800 - deltaTime).toNat / 604800 ≤
        average.toInt.toNat :=
      Nat.div_le_of_le_mul (by
        rw [Nat.mul_comm 604800]
        exact Nat.mul_le_mul_left _ (by omega))
    rw [isLeft, BitVec.mul_comm, BitVec.toNat_udiv, UInt128.toNat_ofInt64_mul nonneg (by omega),
      isWindow, Int64.toInt_ofNat_of_lt (by omega)]
    exact Int.natCast_nonneg _

/-- The average is a count of bytes that was last brought up to date at the latest now. -/
structure AccountBandwidth.Counted (now : TimePointSec) (band : AccountBandwidth) : Prop where
  nonneg : 0 ≤ band.averageBandwidth.toInt
  past : band.lastBandwidthUpdate ≤ now

/-- What every state of the plugin has. -/
structure WitnessPlugin.Healthy (now : TimePointSec) (plugin : WitnessPlugin) : Prop where
  moderate : ∀ r, plugin.reserveRatio = some r → Moderate r.currentReserveRatio
  counted : ∀ band ∈ plugin.bandwidths, band.Counted now

variable {now : TimePointSec} {plugin : WitnessPlugin}

theorem WitnessPlugin.Healthy.later {future : TimePointSec} (healthy : plugin.Healthy now)
    (later : now ≤ future) : plugin.Healthy future := by
  refine ⟨healthy.moderate, fun band member => ?_⟩
  obtain ⟨nonneg, past⟩ := healthy.counted band member
  exact ⟨nonneg, UInt32.le_trans past later⟩

theorem leaves_putBandwidth (healthy : plugin.Healthy now) (band : AccountBandwidth)
    (counted : band.Counted now) :
    Leaves (putBandwidth band) plugin (fun _ left => left.Healthy now ∧
      left.reserveRatio = plugin.reserveRatio) (·.Healthy now) :=
  ⟨⟨healthy.moderate, Table.forall_mem_replace healthy.counted counted⟩, rfl⟩

theorem leaves_findOrCreateBandwidth (healthy : plugin.Healthy now) (account : AccountName)
    (type : BandwidthType) :
    Leaves (findOrCreateBandwidth account type) plugin (fun band left => left.Healthy now ∧
      left.reserveRatio = plugin.reserveRatio ∧ band.Counted now) (·.Healthy now) := by
  refine .read ?_
  split
  · next band found =>
    exact .done ⟨healthy, rfl, healthy.counted band (Table.mem_of_find? found)⟩
  · next absent =>
    have fresh : AccountBandwidth.Counted now { account, type } := ⟨Int.le_refl 0, Nat.zero_le _⟩
    obtain ⟨next, added⟩ := @Table.insert?_of_find?_eq_none _ _ AccountBandwidth.key _
      { account, type } _ absent
    have isNext : plugin.bandwidths.insertNew { account, type } = next := by
      rw [Table.insertNew, added, Option.getD_some]
    refine show WitnessPlugin.Healthy now _ ∧ _ ∧ _ from ⟨⟨healthy.moderate, ?_⟩, rfl, fresh⟩
    rw [isNext]
    exact Table.forall_mem_insert? healthy.counted added fresh

/-- Whatever becomes of a charge, averages stay counts of bytes and the ratio is not touched. -/
theorem leaves_chargeBandwidth (healthy : plugin.Healthy now) (account : AccountName)
    (trxSize : UInt32) (type : BandwidthType) :
    Leaves (chargeBandwidth now account trxSize type) plugin (fun band left => left.Healthy now ∧
      left.reserveRatio = plugin.reserveRatio ∧ 0 ≤ band.averageBandwidth.toInt)
      (·.Healthy now) := by
  have size := trxSize.toNat_lt
  have isBandwidth : (Int64.ofNat (trxSize.toNat * 1000000)).toInt = trxSize.toNat * 1000000 :=
    Int64.toInt_ofNat_of_lt (by omega)
  refine (leaves_findOrCreateBandwidth healthy account type).bind ?_
  rintro band found - ⟨healthy, sameRatio, nonneg, past⟩
  have forward : 0 ≤ secondsBetween now band.lastBandwidthUpdate := by
    have ordered : band.lastBandwidthUpdate.toNat ≤ now.toNat := past
    unfold secondsBetween
    omega
  refine .lift healthy fun decayed isDecayed => .lift healthy fun newBandwidth isNew => ?_
  have decayedNonneg := nonneg_decayedBandwidth nonneg forward isDecayed
  rw [ShareType.add_eq_ok, isBandwidth] at isNew
  have newNonneg : 0 ≤ newBandwidth.toInt := by omega
  refine (leaves_putBandwidth healthy { band with averageBandwidth := newBandwidth }
    ⟨newNonneg, past⟩).bind ?_
  rintro - averaged - ⟨healthy, sameAveraged⟩
  refine .lift healthy fun lifetime _ => ?_
  refine (leaves_putBandwidth healthy (AccountBandwidth.mk _ _ newBandwidth lifetime now)
    ⟨newNonneg, UInt32.le_refl now⟩).bind ?_
  rintro - charged - ⟨healthy, sameCharged⟩
  exact .done ⟨healthy, sameCharged.trans (sameAveraged.trans sameRatio), newNonneg⟩

/-! ### The decision -/

theorem hasBandwidth_eq {accountVshares totalVshares averageBandwidth : ShareType}
    {maxVirtualBandwidth : UInt128} (shares : 0 ≤ accountVshares.toInt)
    (total : 0 ≤ totalVshares.toInt) (average : 0 ≤ averageBandwidth.toInt)
    (fits : accountVshares.toInt * maxVirtualBandwidth.toNat <
      340282366920938463463374607431768211456) :
    hasBandwidth accountVshares totalVshares averageBandwidth maxVirtualBandwidth =
      decide (averageBandwidth.toInt * totalVshares.toInt <
        accountVshares.toInt * maxVirtualBandwidth.toNat) := by
  obtain ⟨owned, isOwned⟩ := Int.eq_ofNat_of_zero_le shares
  have isLeft : (UInt128.ofInt64 accountVshares * maxVirtualBandwidth).toNat =
      owned * maxVirtualBandwidth.toNat := by
    rw [BitVec.toNat_mul, UInt128.toNat_ofInt64_of_nonneg shares, isOwned, Int.toNat_natCast]
    rw [isOwned] at fits
    exact Nat.mod_eq_of_lt (by exact_mod_cast fits)
  obtain ⟨used, isUsed⟩ := Int.eq_ofNat_of_zero_le average
  obtain ⟨all, isAll⟩ := Int.eq_ofNat_of_zero_le total
  refine decide_eq_decide.mpr ?_
  rw [BitVec.lt_def, isLeft, UInt128.toNat_ofInt64_mul_ofInt64 average total, isOwned, isUsed,
    isAll, Int.toNat_natCast, Int.toNat_natCast]
  exact_mod_cast Iff.rfl

theorem leaves_updateAccountBandwidth {props : DynamicGlobalProperties}
    (healthy : plugin.Healthy props.time) (producing : Bool) (a : Account) (trxSize : UInt32)
    (type : BandwidthType) :
    Leaves (updateAccountBandwidth props producing a trxSize type) plugin
      (fun _ left => left.Healthy props.time) (·.Healthy props.time) := by
  unfold updateAccountBandwidth
  split
  · refine (leaves_chargeBandwidth healthy a.name trxSize type).bind ?_
    rintro band charged - ⟨healthy, -⟩
    refine .lift healthy fun accountVshares _ => .read ?_
    split
    · exact .throw healthy
    · exact .require healthy fun _ => .done healthy
  · exact .done healthy

theorem healthy_of_reached (reached : plugin.Reached now) : plugin.Healthy now := by
  induction reached with
  | start now =>
    refine ⟨fun r kept => ?_, fun band member => ?_⟩
    · cases kept
    · exact absurd member (List.not_mem_nil)
  | @block now plugin _ props blockSize later voted healthy =>
    refine ⟨fun r kept => ?_, (healthy.later later).counted⟩
    cases kept
    split
    · exact ⟨by decide, by decide⟩
    · next r kept => exact moderate_updated (healthy.moderate r kept) blockSize voted
  | @transaction now plugin _ props producing a trxSize type later healthy =>
    have leaves := leaves_updateAccountBandwidth (healthy.later later) producing a trxSize type
    unfold WitnessPlugin.notify
    unfold Leaves at leaves
    cases run : updateAccountBandwidth props producing a trxSize type plugin with
    | ok decision changed =>
      rw [run] at leaves
      exact leaves
    | error e changed =>
      rw [run] at leaves
      dsimp only
      split
      · exact healthy.later later
      · exact leaves

/-! ### A limit as large as a witness may vote for -/

def wideProperties : DynamicGlobalProperties :=
  { genesisProperties 0 0 with
    headBlockNumber := 20
    maximumBlockSize := 4294967295
    totalVestingShares := 1964984189799382 }

def ownerOf (shares : ShareType) : Account :=
  { Account.make 3 AccountName.temp with vestingShareBalance := shares }

/-- The plugin after the blocks that created and updated the reserve ratio. -/
def widePlugin : WitnessPlugin :=
  (WitnessPlugin.onPostApplyBlock {} wideProperties 1000).onPostApplyBlock wideProperties 1000

theorem reached_widePlugin : widePlugin.Reached genesisTime := by
  have created := WitnessPlugin.Reached.block (.start genesisTime) wideProperties 1000
    (UInt32.le_refl _) (by decide)
  exact created.block wideProperties 1000 (UInt32.le_refl _) (by decide)

/-! ### The theorem -/

end Zattera
