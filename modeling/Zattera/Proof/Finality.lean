/-
This file shows what two chains have in common when each of them has made a block
of some height irreversible under the same schedule. A witness has confirmed a
block only by producing one, so on each chain three quarters of the witnesses
have produced a block of that height or a later one; half of them have done so on
both.
-/

import Zattera.Lib.Quorum
import Zattera.Proof.Duplicates

namespace Zattera

open Program

set_option synthInstance.maxSize 1024

variable {blocks : List SignedBlock} {height : Nat} {start s t : ChainState}

/-! ### Confirmed blocks were produced -/

/-- A witness has produced a block of some height or a later one. -/
def Produced (blocks : List SignedBlock) (height : Nat) (name : AccountName) : Prop :=
  ∃ block ∈ blocks, block.witness = name ∧ height ≤ block.blockNum

instance (blocks : List SignedBlock) (height : Nat) (name : AccountName) :
    Decidable (Produced blocks height name) :=
  inferInstanceAs (Decidable (∃ block ∈ blocks, _))

theorem Produced.mono {others : List SignedBlock} {name : AccountName}
    (produced : Produced blocks height name) (part : blocks ⊆ others) :
    Produced others height name := by
  obtain ⟨block, member, isWitness⟩ := produced
  exact ⟨block, part member, isWitness⟩

/-- A state as at genesis: no witness has confirmed a block, and the schedule names no witness
twice. -/
structure ChainState.Unconfirmed (state : ChainState) : Prop where
  confirmed : state.confirmed = fun _ => 0
  scheduled : state.witnessSchedule.scheduledWitnesses.Nodup

theorem unconfirmed_initGenesis (liquid dollar : ShareType) :
    (initGenesis liquid dollar).Unconfirmed := by
  refine ⟨funext fun name => ?_, List.nodup_singleton _⟩
  change (Option.map _ (List.find? _ [genesisWitness])).getD 0 = 0
  rw [List.find?_singleton]
  split <;> rfl

theorem produced_of_confirmed {allowed : SkipFlags → Prop} {state : ChainState}
    (unconfirmed : start.Unconfirmed) (chained : Chained allowed start blocks state)
    {name : AccountName} (positive : 0 < height) (confirmed : height ≤ state.confirmed name) :
    Produced blocks height name := by
  induction chained with
  | start =>
    rw [unconfirmed.confirmed] at confirmed
    exact absurd confirmed positive.not_ge
  | block earlier skip producing next permitted applied inductionHypothesis =>
    rw [(applyBlock_pulse applied).1] at confirmed
    by_cases isWitness : name = next.witness
    · subst isWitness
      rw [Function.update_self] at confirmed
      exact ⟨next, List.mem_cons_self, rfl, confirmed⟩
    · rw [Function.update_of_ne isWitness] at confirmed
      exact (inductionHypothesis confirmed).mono (List.subset_cons_self _ _)

/-! ### The schedule names no witness twice -/

theorem nodup_votedWitnessNames (state : ChainState) : state.votedWitnessNames.Nodup := by
  have owners : (state.witnessesByVoteName.map Witness.owner).Nodup :=
    ((List.perm_insertionSort _ _).map Witness.owner).nodup_iff.mpr state.witnesses.distinct
  exact (owners.sublist (List.filter_sublist.map _)).sublist (List.take_sublist _ _)

theorem selectRunners_added (voted : List AccountName) (witnesses : List Witness) (count : Nat)
    (time : UInt128) :
    (selectRunners voted witnesses count time).added.Sublist (witnesses.map Witness.owner) ∧
      ∀ name ∈ (selectRunners voted witnesses count time).added, name ∉ voted := by
  induction witnesses generalizing count time with
  | nil => exact ⟨List.Sublist.refl _, nofun⟩
  | cons witness rest inductionHypothesis =>
    unfold selectRunners
    split
    · exact ⟨List.nil_sublist _, nofun⟩
    · dsimp only
      split
      · next adds =>
        obtain ⟨sublist, fresh⟩ := inductionHypothesis (count + 1) witness.virtualScheduledTime
        refine ⟨sublist.cons_cons _, List.forall_mem_cons.mpr ⟨?_, fresh⟩⟩
        exact (of_decide_eq_true adds).2
      · obtain ⟨sublist, fresh⟩ := inductionHypothesis count witness.virtualScheduledTime
        exact ⟨sublist.cons _, fresh⟩

theorem nodup_selected {selection : List AccountName × List AccountName × UInt128}
    (run : selectWitnesses s = .ok selection t) : (selection.1 ++ selection.2.1).Nodup := by
  simp only [selectWitnesses, bind_eq_ok, get_eq_ok] at run
  obtain ⟨_, _, ⟨rfl, rfl⟩, _, state, _, _, _, ⟨rfl, rfl⟩, _, _, _, overflows, _, _, run⟩ := run
  have owners : (state.witnessesByScheduleTime.map Witness.owner).Nodup :=
    ((List.perm_insertionSort _ _).map Witness.owner).nodup_iff.mpr state.witnesses.distinct
  obtain ⟨sublist, fresh⟩ := selectRunners_added s.votedWitnessNames state.witnessesByScheduleTime
    s.votedWitnessNames.length state.witnessSchedule.currentVirtualTime
  have distinct := List.nodup_append.mpr ⟨nodup_votedWitnessNames s, owners.sublist sublist,
    fun voted isVoted added isAdded same => fresh added isAdded (same ▸ isVoted)⟩
  split at run
  · obtain ⟨_, _, _, run⟩ := bind_eq_ok.mp run
    obtain ⟨rfl, rfl⟩ := pure_eq_ok.mp run
    exact distinct
  · obtain ⟨rfl, rfl⟩ := pure_eq_ok.mp run
    exact distinct

/-! ### Shuffling -/

theorem perm_take_swapPlaces {names : List AccountName} {i j count : Nat} (isI : i < count)
    (isJ : j < count) (within : count ≤ names.length) :
    ((swapPlaces names i j).take count).Perm (names.take count) ∧
      (swapPlaces names i j).length = names.length := by
  unfold swapPlaces
  refine ⟨?_, by rw [List.length_set, List.length_set]⟩
  have length : (names.take count).length = count := List.length_take_of_le within
  rw [List.take_set, List.take_set, List.getD_eq_getElem _ _ (isJ.trans_le within),
    List.getD_eq_getElem _ _ (isI.trans_le within)]
  have swapped := @List.set_set_perm _ (names.take count) i j (by rwa [length]) (by rwa [length])
  rwa [List.getElem_take, List.getElem_take] at swapped

theorem perm_take_shuffle (now : TimePointSec) {names : List AccountName} {count : Nat}
    (within : count ≤ names.length) :
    ((shuffle now count names).take count).Perm (names.take count) ∧
      (shuffle now count names).length = names.length := by
  unfold shuffle
  have places : ∀ i ∈ List.range count, i < count := fun i member => List.mem_range.mp member
  generalize List.range count = order at places
  induction order generalizing names with
  | nil => exact ⟨.refl _, rfl⟩
  | cons i rest inductionHypothesis =>
    have isI := places i List.mem_cons_self
    have isOther := Nat.mod_lt (shuffleNumber (UInt64.ofNat now.toNat <<< 32) i).toNat
      (Nat.sub_pos_of_lt isI)
    obtain ⟨swapped, sameLength⟩ := perm_take_swapPlaces isI (Nat.add_lt_of_lt_sub' isOther) within
    obtain ⟨shuffled, length⟩ := inductionHypothesis (within.trans_eq sameLength.symm)
      fun place member => places place (List.mem_cons_of_mem _ member)
    exact ⟨shuffled.trans swapped, length.trans sameLength⟩

theorem scheduledWitnesses_eq_take {schedule : WitnessSchedule}
    (within : schedule.numScheduledWitnesses ≤ schedule.currentShuffledWitnesses.length) :
    schedule.scheduledWitnesses =
      schedule.currentShuffledWitnesses.take schedule.numScheduledWitnesses := by
  unfold WitnessSchedule.scheduledWitnesses WitnessSchedule.shuffledWitness
  refine List.ext_getElem (by simpa using within) fun place first second => ?_
  rw [List.getElem_map, List.getElem_range, List.getElem_take, List.getD_eq_getElem]

/-- The witnesses of a new schedule are those selected, in another order, or one that is not there
where none is selected. -/
theorem perm_renewed (schedule : WitnessSchedule) (elected added : List AccountName) (time : UInt128)
    (version : Version) (dgp : DynamicGlobalProperties) :
    (schedule.renewed elected added time version dgp).scheduledWitnesses.Perm
      (if elected ++ added = [] then [default] else elected ++ added) := by
  have within : max (elected ++ added).length 1 ≤
      ((elected ++ added) ++ List.replicate (21 - (elected ++ added).length) default).length := by
    simp only [List.length_append, List.length_replicate]
    omega
  obtain ⟨shuffled, length⟩ := perm_take_shuffle dgp.time within
  rw [scheduledWitnesses_eq_take (within.trans_eq length.symm)]
  refine shuffled.trans (.of_eq ?_)
  cases elected ++ added with
  | nil => rfl
  | cons name rest =>
    have whole : max (name :: rest).length 1 = (name :: rest).length :=
      max_eq_left (Nat.succ_le_succ (Nat.zero_le _))
    rw [whole, List.take_left, if_neg (List.cons_ne_nil _ _)]

theorem nodup_renewed {elected added : List AccountName} (distinct : (elected ++ added).Nodup)
    (schedule : WitnessSchedule) (time : UInt128) (version : Version)
    (dgp : DynamicGlobalProperties) :
    (schedule.renewed elected added time version dgp).scheduledWitnesses.Nodup := by
  refine (perm_renewed schedule elected added time version dgp).nodup_iff.mpr ?_
  split
  · exact List.nodup_singleton _
  · exact distinct

/-- The schedule names no witness twice. -/
def ChainState.SchedulesOnce (state : ChainState) : Prop :=
  state.witnessSchedule.scheduledWitnesses.Nodup

theorem schedulesOnce_of_schedule (same : t.witnessSchedule = s.witnessSchedule)
    (once : s.SchedulesOnce) : t.SchedulesOnce := by
  unfold ChainState.SchedulesOnce
  rwa [same]

instance (priority := low) {α : Type} (x : Chain α)
    [kept : Respects (Same ChainState.witnessSchedule) x] :
    Respects (Keeping ChainState.SchedulesOnce) x :=
  kept.mono fun _ _ => schedulesOnce_of_schedule

instance : Respects (Keeping ChainState.SchedulesOnce) updateWitnessSchedule := by
  have renewed : Respects (Keeping ChainState.SchedulesOnce) updateWitnessSchedule4 := by
    refine ⟨fun s u t run _ => ?_⟩
    simp only [updateWitnessSchedule4, updateMedianWitnessProps, bind_eq_ok, get_eq_ok,
      modify_eq_ok] at run
    obtain ⟨selection, _, selected, _, _, _, _, state, _, _, _, rfl, _, _, ⟨rfl, rfl⟩, _, _,
      scheduled, rfl⟩ := run
    obtain ⟨rfl, _⟩ := getScheduled_eq_ok scheduled
    -- Neither the virtual time nor the version bears on who is scheduled.
    exact nodup_renewed (nodup_selected selected) state.witnessSchedule 0 default state.dgp
  dsimp only [updateWitnessSchedule]
  infer_instance

instance : Respects (Keeping ChainState.SchedulesOnce) clearExpiredTransactions :=
  .modify fun _ once => once

instance (block : SignedBlock) : Respects (Keeping ChainState.SchedulesOnce)
    (applyBlockMaintenance block) := by
  unfold applyBlockMaintenance
  repeat with_reducible refine .step inferInstance fun _ => ?_
  infer_instance

theorem schedulesOnce_applyBlock {skip : SkipFlags} {producing : Bool} {block : SignedBlock}
    {u : Unit} (run : applyBlock skip producing block s = .ok u t) (once : s.SchedulesOnce) :
    t.SchedulesOnce := by
  unfold applyBlock at run
  obtain ⟨_, first, started, run⟩ := bind_eq_ok.mp run
  obtain ⟨_, second, moved, run⟩ := bind_eq_ok.mp run
  obtain ⟨_, _, _, _, _, _, clock⟩ := applyBlockTransactions_clock started
  have schedule : second.witnessSchedule = s.witnessSchedule :=
    calc second.witnessSchedule = first.witnessSchedule :=
        congrArg Clock.schedule (updateLastIrreversibleNum_clock moved)
      _ = s.witnessSchedule := congrArg Clock.schedule clock
  exact keeps run (schedulesOnce_of_schedule schedule once)

theorem schedulesOnce_of_chained {allowed : SkipFlags → Prop} {state : ChainState}
    (unconfirmed : start.Unconfirmed) (chained : Chained allowed start blocks state) :
    state.SchedulesOnce := by
  induction chained with
  | start => exact unconfirmed.scheduled
  | block earlier skip producing next permitted applied inductionHypothesis =>
    exact schedulesOnce_applyBlock applied inductionHypothesis

/-! ### Two chains -/

/-- A block of a chain, past the start of the witness voting, made some height irreversible while
the given witnesses were scheduled. -/
def Finalized (start : ChainState) (blocks : List SignedBlock) (names : Finset AccountName)
    (height : Nat) : Prop :=
  ∃ block earlier before after skip producing,
    block :: earlier <:+ blocks ∧ Chained (fun _ => True) start earlier before ∧
      applyBlock skip producing block before = .ok () after ∧
      before.witnessSchedule.scheduledWitnesses.toFinset = names ∧ 201600 ≤ block.blockNum ∧
      before.dgp.lastIrreversibleBlockNum < height ∧ height ≤ after.dgp.lastIrreversibleBlockNum

/-- All but a quarter of the scheduled witnesses have produced a block of a finalized height or a
later one. -/
theorem Finalized.card_le {names : Finset AccountName} (unconfirmed : start.Unconfirmed)
    (finalized : Finalized start blocks names height) :
    names.card ≤ (names.filter (Produced blocks height)).card + 2500 * names.card / 10000 := by
  obtain ⟨block, earlier, before, after, skip, producing, part, chained, applied, rfl, voting,
    fresh, reached⟩ := finalized
  have scheduled : before.witnessSchedule.scheduledWitnesses.Nodup :=
    schedulesOnce_of_chained unconfirmed chained
  have irreversible := congrArg HeadBlock.lastIrreversible (applyBlock_pulse applied).2
  generalize before.witnessSchedule.scheduledWitnesses = names at *
  have quorum : height ≤ quorumNumber (names.map after.confirmed) := by
    change after.dgp.lastIrreversibleBlockNum = irreversibleAfter _ _ _ at irreversible
    rw [irreversible, irreversibleAfter, if_neg voting.not_gt, le_max_iff] at reached
    exact reached.resolve_left fresh.not_ge
  have most := Quorum.length_le_countP_add (Nat.zero_lt_of_lt fresh) quorum
  rw [List.length_map, List.countP_map, List.countP_eq_length_filter,
    ← List.toFinset_card_of_nodup scheduled,
    ← List.toFinset_card_of_nodup (scheduled.filter _)] at most
  refine most.trans (Nat.add_le_add_right (Finset.card_le_card fun name member => ?_) _)
  obtain ⟨isScheduled, confirmed⟩ := List.mem_filter.mp (List.mem_toFinset.mp member)
  have produced := produced_of_confirmed unconfirmed (.block chained skip producing block trivial
    applied) (Nat.zero_lt_of_lt fresh) (of_decide_eq_true confirmed)
  exact Finset.mem_filter.mpr ⟨List.mem_toFinset.mpr isScheduled, produced.mono part.subset⟩

/-- When two chains with one start have both made a height irreversible under a schedule of the same
witnesses, at least half of these have produced a block of that height or a later one on both. -/
theorem finalized_overlap {start : ChainState} {first second : List SignedBlock}
    {names : Finset AccountName} {height : Nat} (unconfirmed : start.Unconfirmed)
    (onFirst : Finalized start first names height)
    (onSecond : Finalized start second names height) :
    names.card ≤
      2 * (names.filter fun name =>
        Produced first height name ∧ Produced second height name).card := by
  have overlap := Quorum.card_le_card_inter_add (Finset.filter_subset _ _)
    (Finset.filter_subset _ _) (onFirst.card_le unconfirmed) (onSecond.card_le unconfirmed)
  rw [← Finset.filter_and] at overlap
  omega

/-- The genesis state, shortly before the witness voting starts. -/
def genesisBeforeVoting : ChainState :=
  { genesis with dgp := { genesis.dgp with
    headBlockNumber := 201599
    headBlockId := ⟨201599, 0⟩
    time := genesisTime + 604797
    lastIrreversibleBlockNum := 201578 } }

/-- The genesis witness alone makes each of its blocks irreversible, also two different ones of one
height. -/
theorem genesisBlocks_overlap :
    let first := genesisBlock ⟨201599, 0⟩ []
    let second := { first with hash := 2 }
    first.id ≠ second.id ∧ Finalized genesisBeforeVoting [first] {AccountName.genesis} 201600 ∧
      Finalized genesisBeforeVoting [second] {AccountName.genesis} 201600 ∧
      1 ≤ 2 * (({AccountName.genesis} : Finset AccountName).filter fun name =>
        Produced [first] 201600 name ∧ Produced [second] 201600 name).card := by
  intro first second
  have finalized : ∀ block ∈ [first, second],
      Finalized genesisBeforeVoting [block] {AccountName.genesis} 201600 := by
    intro block member
    have outcome : ∀ block ∈ [first, second],
        (match applyBlock {} false block genesisBeforeVoting with
        | .ok _ after => after.dgp.lastIrreversibleBlockNum
        | .error _ _ => 0) = 201600 ∧ 201600 ≤ block.blockNum := by
      decide +kernel
    obtain ⟨reached, voting⟩ := outcome block member
    split at reached
    · next applied =>
      exact ⟨block, [], genesisBeforeVoting, _, {}, false, List.suffix_rfl, .start, applied, rfl,
        voting, by decide, reached.ge⟩
    · cases reached
  have onFirst := finalized first List.mem_cons_self
  have onSecond := finalized second (List.mem_cons_of_mem _ List.mem_cons_self)
  obtain ⟨confirmed, scheduled⟩ : genesis.Unconfirmed := unconfirmed_initGenesis _ _
  have unconfirmed : genesisBeforeVoting.Unconfirmed := ⟨confirmed, scheduled⟩
  exact ⟨by decide, onFirst, onSecond, finalized_overlap unconfirmed onFirst onSecond⟩

end Zattera
