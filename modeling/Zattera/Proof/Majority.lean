/-
This file is about the versions that witnesses report and the hardforks they vote
for. Every update of the schedule counts them for the witnesses that have been
scheduled: the version of the majority is the highest that enough of them run, or a
higher one, and the next hardfork is one that enough of them vote for.
-/

import Mathlib.Order.Bounds.Basic
import Zattera.Proof.Schedule

namespace Zattera

open Program Faceted Tally

set_option synthInstance.maxSize 4096

/-! ### The scans -/

/-- The scan stops at the highest key up to which the entries add up to what is required. -/
theorem scanVersions_eq {required : Nat} {current : Version} {entries : List (Version × Nat)}
    {seen : Nat} (sorted : Sorted (fun a b : Version => b < a) entries) (below : seen < required) :
    (required ≤ seen + total (scanVersions required current entries seen ≤ ·) entries ∧
        ∀ version > scanVersions required current entries seen,
          seen + total (version ≤ ·) entries < required) ∨
      scanVersions required current entries seen = current ∧
        ∀ version, seen + total (version ≤ ·) entries < required := by
  induction entries generalizing seen with
  | nil => exact .inr ⟨rfl, fun _ => below⟩
  | cons entry rest inductionHypothesis =>
    obtain ⟨first, others⟩ := List.pairwise_cons.mp sorted
    have none {version : Version} (high : entry.1 ≤ version) : total (version ≤ ·) rest = 0 :=
      total_eq_zero fun other member =>
        decide_eq_false (Nat.not_le.mpr ((first other member).trans_le high))
    have above {version : Version} (higher : entry.1 < version) :
        seen + total (version ≤ ·) (entry :: rest) < required := by
      rw [total_cons, if_neg (by simpa using higher), none higher.le]
      exact below
    have upTo {version : Version} (low : version ≤ entry.1) :
        seen + total (version ≤ ·) (entry :: rest) = seen + entry.2 + total (version ≤ ·) rest := by
      rw [total_cons, if_pos (by simpa using low), Nat.add_assoc]
    have lower {version : Version} (fewer : seen + entry.2 + total (version ≤ ·) rest < required) :
        seen + total (version ≤ ·) (entry :: rest) < required := by
      rcases Nat.lt_or_ge entry.1 version with higher | low
      · exact above higher
      · rwa [upTo low]
    unfold scanVersions
    split
    · next enough =>
      refine .inl ⟨?_, fun version => above⟩
      rw [upTo (Nat.le_refl _), none (Nat.le_refl _)]
      exact enough
    · next few =>
      rcases inductionHypothesis others (Nat.lt_of_not_le few) with ⟨enough, higher⟩ | ⟨same, fewer⟩
      · refine .inl ⟨?_, fun version isHigher => lower (higher version isHigher)⟩
        rwa [upTo]
        by_contra high
        rw [none (Nat.lt_of_not_le high).le] at enough
        exact few enough
      · exact .inr ⟨same, fun version => lower (fewer version)⟩

section Counts

variable {versions : List Version} {required : Nat} {current : Version}

/-- Whether enough witnesses run a version or a higher one. -/
def Backed (versions : List Version) (required : Nat) (version : Version) : Prop :=
  required ≤ versions.countP (version ≤ ·)

theorem majorityVersion_eq (positive : 0 < required) :
    IsGreatest {version | Backed versions required version}
        (majorityVersion versions required current) ∨
      majorityVersion versions required current = current ∧
        ∀ version, ¬ Backed versions required version := by
  have counted (version : Version) : total (version ≤ ·) (witnessVersions versions) = _ :=
    total_tally _ (version ≤ ·) versions
  have scanned := @scanVersions_eq required current (witnessVersions versions) 0
    (sorted_tally versions) positive
  simp only [Nat.zero_add, counted] at scanned
  rcases scanned with ⟨enough, higher⟩ | ⟨same, fewer⟩
  · refine .inl ⟨enough, fun version backed => ?_⟩
    by_contra above
    exact absurd backed (Nat.not_le.mpr (higher version (Nat.lt_of_not_le above)))
  · exact .inr ⟨same, fun version => Nat.not_le.mpr (fewer version)⟩

instance : IsTrans HardforkVersionVote HardforkVersionVote.Before where
  trans a b c first second := by
    rcases first with lower | ⟨same, earlier⟩
    · rcases second with further | ⟨same, _⟩
      · exact .inl (Nat.lt_trans lower further)
      · exact .inl (same ▸ lower)
    · rcases second with lower | ⟨also, further⟩
      · exact .inl (same ▸ lower)
      · exact .inr ⟨same.trans also, UInt32.lt_trans earlier further⟩

instance : Std.Irrefl HardforkVersionVote.Before where
  irrefl a before := by
    rcases before with lower | ⟨_, earlier⟩
    · exact Nat.lt_irrefl _ lower
    · exact UInt32.lt_irrefl _ earlier

instance : Std.Trichotomous HardforkVersionVote.Before where
  trichotomous a b notBefore notAfter := by
    obtain ⟨version, time⟩ := a
    obtain ⟨other, later⟩ := b
    obtain ⟨notLower, notEarlier⟩ := not_or.mp notBefore
    obtain ⟨notHigher, notLater⟩ := not_or.mp notAfter
    obtain rfl : version = other :=
      Nat.le_antisymm (Nat.le_of_not_lt notHigher) (Nat.le_of_not_lt notLower)
    have same : time = later := UInt32.le_antisymm
      (UInt32.not_lt.mp fun isLater => notLater ⟨rfl, isLater⟩)
      (UInt32.not_lt.mp fun isEarlier => notEarlier ⟨rfl, isEarlier⟩)
    rw [same]

theorem majorityVote_eq_some {votes : List HardforkVersionVote} {vote : HardforkVersionVote}
    (chosen : majorityVote votes required = some vote) : required ≤ votes.count vote := by
  obtain ⟨entry, found, rfl⟩ := Option.map_eq_some_iff.mp chosen
  rw [count_of_mem (List.mem_of_find?_eq_some found)]
  have enough := List.find?_some found
  exact of_decide_eq_true enough

theorem majorityVote_eq_none {votes : List HardforkVersionVote} (positive : 0 < required)
    (none : majorityVote votes required = none) (vote : HardforkVersionVote) :
    votes.count vote < required := by
  by_contra enough
  have occurs : vote ∈ votes := List.count_pos_iff.mp (by omega)
  have few := List.find?_eq_none.mp (Option.map_eq_none_iff.mp none) _ (mem_tally occurs)
  simp at few
  omega

end Counts

/-! ### The update -/

/-- The hardfork a witness votes for, and its time. -/
def Witness.vote (witness : Witness) : HardforkVersionVote :=
  ⟨witness.hardforkVersionVote, witness.hardforkTimeVote⟩

/-- What a witness reports. -/
def Witness.report (witness : Witness) : AccountName × Version × HardforkVersionVote :=
  (witness.owner, witness.runningVersion, witness.vote)

/-- What the update counts and changes, but for the virtual time. -/
def ChainState.polled (state : ChainState) :
    List (AccountName × Version × HardforkVersionVote) × WitnessSchedule × HardforkProperties :=
  (state.witnesses.objects.map Witness.report,
    { state.witnessSchedule with currentVirtualTime := 0 }, state.hardforks)

instance : Overlooks (Same ChainState.polled)
    (Among [.part .witnesses, .witness .schedule, .witness .lap]) where
  holds {s t} same := by
    have schedule : t.witnessSchedule = s.witnessSchedule :=
      same (.part .witnessSchedule) (by decide)
    have hardforks : t.hardforks = s.hardforks := same (.part .hardforks) (by decide)
    have reports : t.witnesses.objects.map Witness.report = s.witnesses.objects.map _ :=
      Table.map_eq_of_facetOf (same .owners (by decide)) fun first second owned agree => by
        have record := agree .record (same (.witness .record) (by decide))
        have version := (congrArg Witness.runningVersion record :)
        have vote := (congrArg Witness.vote record :)
        exact Prod.ext owned (Prod.ext version vote)
    unfold Same ChainState.polled
    rw [schedule, hardforks, reports]

instance : Respects (Same ChainState.polled) selectWitnesses := by
  have reset : Respects (Same ChainState.polled) resetVirtualScheduleTime := by
    unfold resetVirtualScheduleTime
    refine .step (.modify fun _ => rfl) fun _ => .step inferInstance fun _ => ?_
    exact respects_forM_mem fun _ _ =>
      overlooked_modifyWitness [.lap] fun _ => .bind fun _ => .pure rfl
  dsimp only [selectWitnesses]
  infer_instance

/-! ### The number of witnesses that is required -/

/-- Some witnesses at least have to agree. -/
def ChainState.Demanding (state : ChainState) : Prop :=
  0 < state.witnessSchedule.hardforkRequiredWitnesses

instance : Respects (Keeping ChainState.Demanding) updateWitnessSchedule where
  related s _ t run demanding := by
    replace run := get_bind_eq_ok.mp run
    rcases whenever_eq_ok.mp run with ⟨_, updated⟩ | ⟨_, rfl⟩
    · obtain ⟨_, _, _, middle, _, _, selected, _, renewed, _⟩ := updateWitnessSchedule4_eq_ok updated
      have kept : middle.polled = _ := viewed selected
      have required := congrArg (fun polled => polled.2.1.hardforkRequiredWitnesses) kept
      unfold ChainState.Demanding
      rw [renewed]
      exact demanding.trans_eq required.symm
    · exact demanding

theorem demanding_of_arrives {liquid dollar : ShareType} {step : BlockStep} {u : ChainState}
    (arrives : Arrives (initGenesis liquid dollar) step u) : u.Demanding := by
  have unwritten {s t : ChainState} (same : t.witnessSchedule = s.witnessSchedule)
      (demanding : s.Demanding) : t.Demanding := by
    unfold ChainState.Demanding
    rwa [same]
  refine arrives.invariant (Nat.succ_pos _) (fun producing op _ => ?_) (fun step => ?_) fun trx => ?_
  · refine ⟨fun s _ t run => unwritten ?_⟩
    exact (within_applyOperation producing op).related s _ t run .witnessSchedule
      (by cases op <;> exact of_decide_eq_true rfl)
  · by_cases written : Part.witnessSchedule ∈ step.footprint
    · cases step with
      | witnessSchedule =>
        exact inferInstanceAs (Respects (Keeping ChainState.Demanding) updateWitnessSchedule)
      | _ => exact absurd written (of_decide_eq_false rfl)
    · exact ⟨fun s _ t run => unwritten
        ((within_blockStep step).related s _ t run .witnessSchedule written)⟩
  · exact respects_create fun s added _ => @unwritten s { s with transactions := added } rfl

/-! ### What is counted -/

/-- The versions of the scheduled witnesses and their votes are counted as they should be. -/
structure Counted (u t : ChainState) (required : Nat) (versions : List Version)
    (votes : List HardforkVersionVote) : Prop where
  version : IsGreatest {version | Backed versions required version}
      t.witnessSchedule.majorityVersion ∨
    t.witnessSchedule.majorityVersion = u.witnessSchedule.majorityVersion ∧
      ∀ version, ¬ Backed versions required version
  hardfork : (∃ vote : HardforkVersionVote, required ≤ votes.count vote ∧
      t.hardforks.nextHardfork = vote.hfVersion ∧ t.hardforks.nextHardforkTime = vote.hfTime) ∨
    t.hardforks.nextHardfork = t.hardforks.currentHardforkVersion ∧
      ∀ vote, votes.count vote < required
  current : t.hardforks.currentHardforkVersion = u.hardforks.currentHardforkVersion

/-- What the scheduled witnesses report is seen in what the update counts. -/
theorem scheduled_of_polled {Read : Type} (read : AccountName × Version × HardforkVersionVote → Read)
    {u s : ChainState} (same : s.polled = u.polled) :
    (s.scheduled.map fun witness => read witness.report) =
      u.scheduled.map fun witness => read witness.report := by
  have reports := congrArg Prod.fst same
  have names : s.witnessSchedule.scheduledWitnesses = u.witnessSchedule.scheduledWitnesses :=
    congrArg (fun polled => polled.2.1.scheduledWitnesses) same
  have found (name : AccountName) :
      (s.witnesses.find? name).map Witness.report = (u.witnesses.find? name).map Witness.report :=
    Table.map_find?_congr (fun alike => congrArg Prod.fst alike) reports name
  unfold ChainState.scheduled
  rw [List.map_filterMap, List.map_filterMap, names]
  refine List.filterMap_congr fun name _ => ?_
  have seen := congrArg (Option.map read) (found name)
  rwa [Option.map_map, Option.map_map] at seen

/-- The update counts what the witnesses scheduled before it report, whatever that is. -/
theorem updateWitnessSchedule4_counts {liquid dollar : ShareType} {v u t : ChainState}
    (arrives : Arrives (initGenesis liquid dollar) .witnessSchedule v)
    (schedule : u.witnessSchedule = v.witnessSchedule)
    (run : updateWitnessSchedule4 u = .ok () t) :
    Counted u t u.witnessSchedule.hardforkRequiredWitnesses
      (u.scheduled.map Witness.runningVersion) (u.scheduled.map Witness.vote) := by
  have positive : 0 < u.witnessSchedule.hardforkRequiredWitnesses := by
    rw [schedule]
    exact demanding_of_arrives arrives
  obtain ⟨_, _, _, middle, _, _, selected, _, renewed, _, rfl, counted⟩ :=
    updateWitnessSchedule4_eq_ok run
  have kept : middle.polled = u.polled := viewed selected
  have versions : middle.scheduled.map Witness.runningVersion =
      u.scheduled.map Witness.runningVersion := scheduled_of_polled (fun report => report.2.1) kept
  have votes : middle.scheduled.map Witness.vote = u.scheduled.map Witness.vote :=
    scheduled_of_polled (fun report => report.2.2) kept
  have required : middle.witnessSchedule.hardforkRequiredWitnesses =
      u.witnessSchedule.hardforkRequiredWitnesses :=
    congrArg (fun polled => polled.2.1.hardforkRequiredWitnesses) kept
  have current : middle.witnessSchedule.majorityVersion = u.witnessSchedule.majorityVersion :=
    congrArg (fun polled => polled.2.1.majorityVersion) kept
  have hardforks : middle.hardforks = u.hardforks := congrArg (fun polled => polled.2.2) kept
  change t.hardforks = middle.hardforks.counted (majorityVote (middle.scheduled.map Witness.vote) _)
    at counted
  rw [versions, required, current] at renewed
  rw [votes, required, hardforks] at counted
  have version : t.witnessSchedule.majorityVersion = _ :=
    congrArg WitnessSchedule.majorityVersion renewed
  refine ⟨?_, ?_, ?_⟩
  · rw [version]
    exact majorityVersion_eq positive
  · rw [counted]
    cases chosen : majorityVote (u.scheduled.map Witness.vote)
      u.witnessSchedule.hardforkRequiredWitnesses with
    | some vote => exact .inl ⟨vote, majorityVote_eq_some chosen, rfl, rfl⟩
    | none => exact .inr ⟨rfl, majorityVote_eq_none positive chosen⟩
  · rw [counted]
    cases majorityVote (u.scheduled.map Witness.vote)
      u.witnessSchedule.hardforkRequiredWitnesses <;> rfl

/-- One witness does not make a majority. -/
theorem keptKey_counts :
    ∃ u t, Arrives genesis .witnessSchedule u ∧ updateWitnessSchedule4 u = .ok () t ∧
      Counted u t u.witnessSchedule.hardforkRequiredWitnesses
        (u.scheduled.map Witness.runningVersion) (u.scheduled.map Witness.vote) := by
  have finished : ∃ v u, untilSchedule genesisPublicKey genesis = .ok v u ∧
      ∃ v t, updateWitnessSchedule4 u = .ok v t ∧ t.hardforks.nextHardfork = 0 := by decide +kernel
  obtain ⟨_, u, run, _, t, updated, _⟩ := finished
  have arrives := arrives_untilSchedule run
  exact ⟨u, t, arrives, updated, updateWitnessSchedule4_counts arrives rfl updated⟩

end Zattera
