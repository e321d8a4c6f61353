/-
This file collects the arithmetic of exchange in whole units. A rate turns an
amount of one thing into an amount of another and rounds down, so that turning
it back never gives more than there was. Two offers whose rates meet trade until
one of them is used up; whichever it is, neither side gets less than it asked
for what it gave. A fund that is owned in shares rounds down as well, so that
deposits and payouts never make the remaining shares worth less.
-/

import Mathlib.Algebra.Order.Ring.Int
import Mathlib.Data.List.Sort
import Mathlib.Tactic.Ring

namespace Exchange

/-! ### Rates -/

/-- A rate of exchange: `base` units of one thing for `quote` units of another. -/
structure Rate where
  base : Int
  quote : Int
  base_pos : 0 < base
  quote_pos : 0 < quote

namespace Rate

/-- What an amount is worth at the rate, rounded down. -/
def worth (rate : Rate) (amount : Int) : Int := amount * rate.quote / rate.base

/-- The same rate, seen from the other side. -/
def swap (rate : Rate) : Rate := ⟨rate.quote, rate.base, rate.quote_pos, rate.base_pos⟩

/-- For what one side asks the other side gives at least as much. -/
def Meets (first second : Rate) : Prop :=
  first.quote * second.quote ≤ first.base * second.base

variable {rate first second : Rate} {amount less bound : Int}

theorem le_worth : bound ≤ rate.worth amount ↔ bound * rate.base ≤ amount * rate.quote :=
  Int.le_ediv_iff_mul_le rate.base_pos

theorem worth_mono (le : less ≤ amount) : rate.worth less ≤ rate.worth amount :=
  Int.ediv_le_ediv rate.base_pos
    (Int.mul_le_mul_of_nonneg_right le (Int.le_of_lt rate.quote_pos))

theorem worth_nonneg (nonneg : 0 ≤ amount) : 0 ≤ rate.worth amount :=
  Int.ediv_nonneg (Int.mul_nonneg nonneg (Int.le_of_lt rate.quote_pos))
    (Int.le_of_lt rate.base_pos)

/-- Turned back, an amount that is covered by the worth of another is covered by that other. -/
theorem swap_worth_le (covered : bound ≤ rate.worth amount) : rate.swap.worth bound ≤ amount := by
  have product := le_worth.mp covered
  refine Int.le_of_mul_le_mul_right ?_ rate.quote_pos
  calc rate.swap.worth bound * rate.quote ≤ bound * rate.base := le_worth.mp (Int.le_refl _)
    _ ≤ amount * rate.quote := product

theorem swap_worth_worth_le : rate.swap.worth (rate.worth amount) ≤ amount :=
  swap_worth_le (Int.le_refl _)

theorem worth_swap_worth_le : rate.worth (rate.swap.worth amount) ≤ amount :=
  @swap_worth_worth_le rate.swap amount

/-- Where rates meet, the other side's rate gives at least as much as one's own. -/
theorem Meets.worth_le (meets : first.Meets second) (nonneg : 0 ≤ amount) :
    first.worth amount ≤ second.swap.worth amount := by
  rw [le_worth]
  refine Int.le_of_mul_le_mul_right ?_ first.base_pos
  have own := Int.mul_le_mul_of_nonneg_right (le_worth.mp (Int.le_refl (first.worth amount)))
    (Int.le_of_lt second.quote_pos)
  calc first.worth amount * second.swap.base * first.base
      = first.worth amount * first.base * second.quote := by
        change first.worth amount * second.quote * first.base = _
        ring
    _ ≤ amount * first.quote * second.quote := own
    _ = amount * (first.quote * second.quote) := by ring
    _ ≤ amount * (first.base * second.base) := Int.mul_le_mul_of_nonneg_left meets nonneg
    _ = amount * second.swap.quote * first.base := by
        change _ = amount * second.base * first.base
        ring

end Rate

/-! ### Trades -/

/-- What two offers give each other, at the rate of the second: the offer that is worth less is
taken whole. -/
def trade (rate : Rate) (first second : Int) : Int × Int :=
  if rate.worth second < first then (rate.worth second, second)
  else (first, rate.swap.worth first)

/-- A trade is good for both sides: each gives something it has, gets at least what it asks for
that, and one of them gives all it has. -/
structure Fair (first second : Rate) (offered offered' : Int) (given : Int × Int) : Prop where
  pos : 0 < given.1
  pos' : 0 < given.2
  le : given.1 ≤ offered
  le' : given.2 ≤ offered'
  asked : first.worth given.1 ≤ given.2
  asked' : second.worth given.2 ≤ given.1
  exhausted : given.1 = offered ∨ given.2 = offered'

theorem fair_trade {first second : Rate} {offered offered' : Int} (meets : first.Meets second)
    (pos : 0 < offered) (pos' : 0 < offered') (worth : 0 < first.worth offered)
    (worth' : 0 < second.worth offered') :
    Fair first second offered offered' (trade second offered offered') := by
  unfold trade
  split
  · next less =>
    refine ⟨worth', pos', Int.le_of_lt less, Int.le_refl _, ?_, Int.le_refl _, .inr rfl⟩
    exact Int.le_trans (meets.worth_le (Int.le_of_lt worth')) Rate.swap_worth_worth_le
  · next covered =>
    have own : first.worth offered ≤ second.swap.worth offered :=
      meets.worth_le (Int.le_of_lt pos)
    refine ⟨pos, Int.lt_of_lt_of_le worth own, Int.le_refl _, ?_, own, ?_, .inl rfl⟩
    · exact Rate.swap_worth_le (Int.not_lt.mp covered)
    · exact Rate.worth_swap_worth_le

/-! ### Funds -/

/-- A fund that is owned in shares. -/
structure Fund where
  assets : Int
  shares : Int

namespace Fund

/-- A fair change of a fund: shares are worth no less than before, the fund is not overdrawn, and
only the last share takes the last of the assets. -/
structure Fair (before after : Fund) : Prop where
  ratio : 0 < before.shares → before.assets * after.shares ≤ after.assets * before.shares
  covered : 0 ≤ after.assets
  last : after.assets = 0 → after.shares = 0

/-- Some shares are paid out of a fund, and that is fair as long as the fund is not empty. -/
def Payout (before after : Fund) : Prop :=
  ∃ assets shares : Int, 0 ≤ assets ∧ 0 ≤ shares ∧
    after = ⟨before.assets - assets, before.shares - shares⟩ ∧
    (0 < before.assets → before.Fair after)

variable {fund : Fund} {given new taken : Int}

theorem fair_deposit (filled : 0 < fund.assets) (nonneg : 0 ≤ given)
    (rounded : 0 < fund.shares → new ≤ given * fund.shares / fund.assets) :
    fund.Fair ⟨fund.assets + given, fund.shares + new⟩ := by
  refine ⟨fun owned => ?_, Int.add_nonneg (Int.le_of_lt filled) nonneg, fun empty => ?_⟩
  · have worth := (Int.le_ediv_iff_mul_le filled).mp (rounded owned)
    calc fund.assets * (fund.shares + new)
        = fund.assets * fund.shares + new * fund.assets := by ring
      _ ≤ fund.assets * fund.shares + given * fund.shares := Int.add_le_add_left worth _
      _ = (fund.assets + given) * fund.shares := by ring
  · change fund.assets + given = 0 at empty
    omega

theorem fair_payout (filled : 0 < fund.assets) (nonneg : 0 ≤ taken) (limited : taken ≤ fund.shares) :
    fund.Fair ⟨fund.assets - taken * fund.assets / fund.shares, fund.shares - taken⟩ := by
  rcases Int.lt_or_eq_of_le (Int.le_trans nonneg limited) with owned | none_
  · have covered : taken * fund.assets / fund.shares ≤ fund.assets := by
      refine Int.ediv_le_of_le_mul owned ?_
      rw [Int.mul_comm]
      exact Int.mul_le_mul_of_nonneg_left limited (Int.le_of_lt filled)
    have rounded : taken * fund.assets / fund.shares * fund.shares ≤ taken * fund.assets :=
      Int.ediv_mul_le _ (Int.ne_of_gt owned)
    refine ⟨fun _ => ?_, Int.sub_nonneg_of_le covered, fun empty => ?_⟩
    · calc fund.assets * (fund.shares - taken)
          = fund.assets * fund.shares - taken * fund.assets := by ring
        _ ≤ fund.assets * fund.shares - taken * fund.assets / fund.shares * fund.shares :=
          Int.sub_le_sub_left rounded _
        _ = (fund.assets - taken * fund.assets / fund.shares) * fund.shares := by ring
    · change fund.assets - taken * fund.assets / fund.shares = 0 at empty
      change fund.shares - taken = 0
      rw [← Int.eq_of_sub_eq_zero empty, Int.mul_comm] at rounded
      have whole := Int.le_of_mul_le_mul_right rounded filled
      omega
  · obtain rfl : taken = 0 := by omega
    rw [Int.zero_mul, Int.zero_ediv, Int.sub_zero, Int.sub_zero]
    exact ⟨fun _ => Int.le_refl _, Int.le_of_lt filled, fun empty =>
      absurd empty (Int.ne_of_gt filled)⟩

end Fund

/-! ### Priority -/

section Priority

variable {Offer Price : Type} [LinearOrder Price] {before : Offer → Offer → Prop}
  [DecidableRel before] {price : Offer → Price} {offers : List Offer}

/-- The offers of one price stay in their order. -/
theorem filter_insertionSort_price (agrees : ∀ first ∈ offers, ∀ second ∈ offers,
      before first second ↔ price second ≤ price first) (level : Price) :
    (offers.insertionSort before).filter (fun offer => decide (price offer = level)) =
      offers.filter fun offer => decide (price offer = level) := by
  have perm := (List.perm_insertionSort before offers).filter fun offer =>
    decide (price offer = level)
  have equals : (offers.filter fun offer => decide (price offer = level)).Pairwise before := by
    refine List.pairwise_iff_forall_sublist.mpr fun {first second} ordered => ?_
    have one := List.mem_filter.mp (ordered.subset (List.mem_cons_self))
    have two := List.mem_filter.mp (ordered.subset (List.mem_cons_of_mem _ List.mem_cons_self))
    rw [decide_eq_true_eq] at one two
    exact (agrees first one.1 second two.1).mpr (two.2.trans one.2.symm).le
  have kept := List.sublist_insertionSort equals List.filter_sublist
  refine (List.Sublist.eq_of_length ?_ perm.length_eq.symm).symm
  have again := kept.filter fun offer => decide (price offer = level)
  simp only [List.filter_filter, Bool.and_self] at again
  exact again

/-- Sorting by price alone serves the best price first and the older one among equals, where the
offers are listed by age. -/
theorem pairwise_insertionSort_price (agrees : ∀ first ∈ offers, ∀ second ∈ offers,
      before first second ↔ price second ≤ price first) :
    (offers.insertionSort before).Pairwise fun first second =>
      price second < price first ∨
        (price second = price first ∧ [first, second].Sublist offers) := by
  have sorted : ((offers.insertionSort before).map price).Pairwise (· ≥ ·) := by
    rw [List.map_insertionSort before (· ≥ ·) price offers agrees]
    exact List.pairwise_insertionSort _ _
  rw [List.pairwise_map] at sorted
  refine (List.pairwise_iff_forall_sublist.mpr fun {first second} ordered => ?_)
  have notWorse := List.pairwise_iff_forall_sublist.mp sorted ordered
  rcases lt_or_eq_of_le notWorse with better | equal
  · exact .inl better
  · refine .inr ⟨equal, ?_⟩
    have level := ordered.filter fun offer => decide (price offer = price first)
    have both : [first, second].filter (fun offer => decide (price offer = price first)) =
        [first, second] := by
      simp [equal]
    rw [filter_insertionSort_price agrees, both] at level
    exact level.trans List.filter_sublist

end Priority

end Exchange
