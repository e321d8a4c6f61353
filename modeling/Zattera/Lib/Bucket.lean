/-
This file is a library on buckets that fill up over time. A bucket has a capacity,
what flows in over a stretch of time is at least what flows in over its parts, and
whatever is in the bucket can be drawn. Over any stretch of time the draws take no
more than the capacity and what flows in.
-/

import Mathlib.Algebra.BigOperators.Group.List.Basic
import Mathlib.Algebra.GroupWithZero.Nat
import Mathlib.Algebra.Order.Group.Nat
import Zattera.Lib.Trace

namespace Bucket

open Trace

/-- How much a bucket holds, and how much flows in over a stretch of time. -/
structure Rate where
  capacity : Nat
  inflow : Nat → Nat
  superadditive : ∀ first second, inflow first + inflow second ≤ inflow (first + second)

/-- What was left in a bucket when it was last drawn from. -/
structure Level where
  amount : Nat
  time : Nat

structure Draw where
  time : Nat
  amount : Nat

/-- What there is in a bucket at a later time. -/
def Level.available (rate : Rate) (level : Level) (now : Nat) : Nat :=
  min (level.amount + rate.inflow (now - level.time)) rate.capacity

/-- A bucket is put in place, or drawn from. -/
inductive Step (rate : Rate) : Option Level → Option Draw → Option Level → Prop
  | idle {level : Option Level} : Step rate level none level
  | placed {level : Level} (fits : level.amount ≤ rate.capacity) : Step rate none none (some level)
  | drawn {before after : Level} {draw : Draw} (later : before.time ≤ draw.time)
      (time : after.time = draw.time)
      (amount : after.amount + draw.amount = before.available rate draw.time) :
      Step rate (some before) (some draw) (some after)

/-- What the draws take between two times. -/
def taken (first last : Nat) (draws : List Draw) : Nat :=
  ((draws.filter fun draw => decide (first ≤ draw.time ∧ draw.time ≤ last)).map Draw.amount).sum

section Taken

variable {first last : Nat} {draws : List Draw} {draw : Draw}

theorem taken_concat : taken first last (draws ++ [draw]) =
    taken first last draws + if first ≤ draw.time ∧ draw.time ≤ last then draw.amount else 0 := by
  unfold taken
  rw [List.filter_append, List.map_append, List.sum_append, List.filter_cons, List.filter_nil]
  by_cases counts : first ≤ draw.time ∧ draw.time ≤ last
  · rw [if_pos (decide_eq_true counts), if_pos counts]
    simp
  · rw [if_neg (by simpa using counts), if_neg counts]
    simp

/-- Draws that are over by some time do not depend on what comes after it. -/
theorem taken_eq {time : Nat} (ended : ∀ draw ∈ draws, draw.time ≤ time) (late : time ≤ last) :
    taken first last draws = taken first time draws := by
  unfold taken
  refine congrArg (fun draws => (draws.map Draw.amount).sum) (List.filter_congr fun draw member => ?_)
  have ended := ended draw member
  exact decide_eq_decide.mpr (and_congr_right fun _ => iff_of_true (ended.trans late) ended)

theorem taken_eq_zero (ended : ∀ draw ∈ draws, draw.time < first) : taken first last draws = 0 := by
  unfold taken
  rw [List.filter_eq_nil_iff.mpr fun draw member => ?_]
  · rfl
  · have ended := ended draw member
    simp only [decide_eq_true_eq]
    omega

end Taken

theorem Rate.inflow_mono (rate : Rate) {short long : Nat} (shorter : short ≤ long) :
    rate.inflow short ≤ rate.inflow long := by
  obtain ⟨rest, rfl⟩ := Nat.exists_eq_add_of_le shorter
  exact (Nat.le_add_right _ _).trans (rate.superadditive short rest)

/-- What is known of a bucket after some draws. -/
structure Rationed (rate : Rate) (draws : List Draw) (level : Level) : Prop where
  fits : level.amount ≤ rate.capacity
  ended : ∀ draw ∈ draws, draw.time ≤ level.time
  left : ∀ first ≤ level.time, taken first level.time draws + level.amount ≤
    rate.capacity + rate.inflow (level.time - first)
  bound : ∀ first last, first ≤ last →
    taken first last draws ≤ rate.capacity + rate.inflow (last - first)

theorem Rationed.drawn {rate : Rate} {draws : List Draw} {draw : Draw} {before after : Level}
    (rationed : Rationed rate draws before) (later : before.time ≤ draw.time)
    (time : after.time = draw.time)
    (amount : after.amount + draw.amount = before.available rate draw.time) :
    Rationed rate (draws ++ [draw]) after := by
  have fits : before.available rate draw.time ≤ rate.capacity := Nat.min_le_right _ _
  have ended (other : Draw) (member : other ∈ draws ++ [draw]) : other.time ≤ draw.time := by
    rcases List.mem_append.mp member with old | new
    · exact (rationed.ended other old).trans later
    · exact (congrArg Draw.time (List.mem_singleton.mp new)).le
  have left (first : Nat) (early : first ≤ draw.time) :
      taken first draw.time (draws ++ [draw]) + after.amount ≤
        rate.capacity + rate.inflow (draw.time - first) := by
    rw [taken_concat, if_pos ⟨early, le_rfl⟩]
    by_cases old : first ≤ before.time
    · have same : taken first draw.time draws = taken first before.time draws :=
        taken_eq rationed.ended later
      have available : before.available rate draw.time ≤
          before.amount + rate.inflow (draw.time - before.time) := Nat.min_le_left _ _
      have inflow := rate.superadditive (before.time - first) (draw.time - before.time)
      rw [show before.time - first + (draw.time - before.time) = draw.time - first by omega]
        at inflow
      have earlier := rationed.left first old
      omega
    · have none : taken first draw.time draws = 0 :=
        taken_eq_zero fun other member => (rationed.ended other member).trans_lt (by omega)
      omega
  refine ⟨by omega, time ▸ ended, time ▸ left, fun first last ordered => ?_⟩
  by_cases counts : first ≤ draw.time ∧ draw.time ≤ last
  · have inflow : rate.inflow (draw.time - first) ≤ rate.inflow (last - first) :=
      rate.inflow_mono (by omega)
    have most := left first counts.1
    rw [taken_eq ended counts.2]
    omega
  · rw [taken_concat, if_neg counts, add_zero]
    exact rationed.bound first last ordered

theorem rationed_nil {rate : Rate} {level : Level} (fits : level.amount ≤ rate.capacity) :
    Rationed rate [] level where
  fits := fits
  ended _ member := absurd member List.not_mem_nil
  left first _ := by
    change 0 + level.amount ≤ _
    omega
  bound _ _ _ := Nat.zero_le _

/-- Whatever is done with a bucket, its draws are rationed; and there is none before it is put in
place. -/
theorem rationed_of_run {rate : Rate} {start level : Option Level} {draws : List Draw}
    (fits : ∀ level ∈ start, level.amount ≤ rate.capacity)
    (run : Run (Step rate) start draws level) :
    (level = none → draws = []) ∧ ∀ present ∈ level, Rationed rate draws present := by
  induction run with
  | start => exact ⟨fun _ => rfl, fun present isLevel => rationed_nil (fits present isLevel)⟩
  | silent earlier step inductionHypothesis =>
    cases step with
    | idle => exact inductionHypothesis
    | placed fits =>
      obtain rfl := inductionHypothesis.1 rfl
      refine ⟨nofun, fun present isLevel => ?_⟩
      cases isLevel
      exact rationed_nil fits
  | event earlier step inductionHypothesis =>
    cases step with
    | drawn later time amount =>
      refine ⟨nofun, fun present isLevel => ?_⟩
      cases isLevel
      exact (inductionHypothesis.2 _ rfl).drawn later time amount

end Bucket
