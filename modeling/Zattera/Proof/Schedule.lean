/-
This file is about the update of the witness schedule. The update ends without
an exception, and schedules what it should, exactly when some witness has a key
to sign with: witnesses are never removed, so that all it looks up is there; and
no witness ever has the number of votes by which it cannot divide, because the
votes are changed by a step that divides by it too.
-/

import Zattera.Proof.Finality
import Zattera.Proof.Witnesses

namespace Zattera

open Program

set_option synthInstance.maxSize 4096

variable {witness : Witness} {names : List AccountName} {name : AccountName} {u : ChainState}

/-! ### What the update leaves alone -/

/-- What the update does not change of a witness. -/
def Witness.ballot (witness : Witness) : AccountName × PublicKey × ShareType :=
  (witness.owner, witness.signingKey, witness.votes)

/-- What a state that the update passes through has in common with the one it started from. -/
structure Polling (u s : ChainState) : Prop where
  ballots : s.witnesses.objects.map Witness.ballot = u.witnesses.objects.map Witness.ballot
  dgp : s.dgp = u.dgp
  scheduled : s.witnessSchedule.scheduledWitnesses = u.witnessSchedule.scheduledWitnesses
  voted : s.witnessSchedule.maxVotedWitnesses = u.witnessSchedule.maxVotedWitnesses

namespace Polling

variable {u s : ChainState}

theorem refl (u : ChainState) : Polling u u := ⟨rfl, rfl, rfl, rfl⟩

theorem owners (polling : Polling u s) :
    s.witnesses.objects.map Witness.owner = u.witnesses.objects.map Witness.owner := by
  have first (witnesses : List Witness) :
      witnesses.map Witness.owner = (witnesses.map Witness.ballot).map Prod.fst := by
    rw [List.map_map]
    rfl
  rw [first, first, polling.ballots]

theorem isSome (polling : Polling u s) (there : (u.witnesses.find? name).isSome) :
    (s.witnesses.find? name).isSome := by
  rw [← Table.mem_map_key] at there ⊢
  rwa [polling.owners]

/-- A witness that was there is there, with the same key and votes. -/
theorem exists_witness (polling : Polling u s) (there : (u.witnesses.find? name).isSome) :
    ∃ witness, s.witnesses.find? name = some witness :=
  Option.isSome_iff_exists.mp (polling.isSome there)

theorem mem (polling : Polling u s) (member : witness ∈ s.witnesses) :
    ∃ old ∈ u.witnesses, old.ballot = witness.ballot := by
  have listed : witness.ballot ∈ s.witnesses.objects.map Witness.ballot :=
    List.mem_map_of_mem member
  rw [polling.ballots] at listed
  exact List.mem_map.mp listed

theorem find? (polling : Polling u s) {old : Witness} (member : old ∈ u.witnesses) :
    ∃ witness, s.witnesses.find? old.owner = some witness ∧ witness.ballot = old.ballot := by
  have listed : old.ballot ∈ u.witnesses.objects.map Witness.ballot := List.mem_map_of_mem member
  rw [← polling.ballots] at listed
  obtain ⟨witness, isWitness, same⟩ := List.mem_map.mp listed
  have owner : witness.owner = old.owner := congrArg Prod.fst same
  refine ⟨witness, ?_, same⟩
  rw [← owner]
  exact Table.find?_of_mem isWitness

theorem divisible (polling : Polling u s) (divisible : u.Divisible) : s.Divisible := by
  intro witness member
  obtain ⟨old, isOld, same⟩ := polling.mem member
  have votes : old.votes = witness.votes := congrArg (fun ballot => ballot.2.2) same
  rw [← votes]
  exact divisible old isOld

theorem replace (polling : Polling u s) {old changed : Witness}
    (found : s.witnesses.find? changed.owner = some old) (same : changed.ballot = old.ballot) :
    Polling u { s with witnesses := s.witnesses.replace changed } :=
  { polling with ballots := (Table.map_replace Witness.ballot found same).trans polling.ballots }

end Polling

section Update

variable {u s : ChainState} {name : AccountName}

/-- An update that leaves key and votes alone is made of any witness there is. -/
theorem returns_updateWitness {change : Witness → Witness} (polling : Polling u s)
    (there : (u.witnesses.find? name).isSome)
    (same : ∀ witness, (change witness).ballot = witness.ballot) :
    Returns (updateWitness name change) s fun _ t => Polling u t := by
  obtain ⟨witness, found⟩ := polling.exists_witness there
  refine ⟨(), _, modifyWitness_eq_ok.mpr ⟨witness, change witness, found, rfl, rfl⟩, ?_⟩
  have owner : (change witness).owner = name :=
    (congrArg Prod.fst (same witness)).trans (Table.find?_eq_some_iff.mp found).2
  rw [← owner] at found
  exact polling.replace found (same witness)

theorem Witness.exists_lapTime (votes : witness.votes.toInt ≠ -1) :
    ∃ lap, witness.lapTime = .ok lap := by
  have lower := witness.votes.le_toInt
  have upper := witness.votes.toInt_lt
  unfold lapTime UInt128.div
  refine ⟨_, if_neg fun isZero => ?_⟩
  have zero := congrArg BitVec.toInt isZero
  rw [BitVec.toInt_ofInt_eq_self (by decide) (by omega) (by omega)] at zero
  change _ = 0 at zero
  omega

theorem returns_advanceProcessed {newVirtualTime : UInt128} (polling : Polling u s)
    (divisible : u.Divisible) (there : ∀ name ∈ names, (u.witnesses.find? name).isSome) :
    Returns (advanceProcessed newVirtualTime names) s fun _ t => Polling u t := by
  induction names generalizing s with
  | nil => exact .done polling
  | cons name rest inductionHypothesis =>
    have first := there name List.mem_cons_self
    obtain ⟨witness, found⟩ := polling.exists_witness first
    obtain ⟨lap, divided⟩ :=
      Witness.exists_lapTime (polling.divisible divisible witness (Table.mem_of_find? found))
    unfold advanceProcessed
    refine .after (getWitness_eq_ok.mpr ⟨found, rfl⟩) (.lift divided ?_)
    split
    · exact .done polling
    · refine .bind (returns_updateWitness polling first ?_) fun _ t polling => ?_
      · exact fun _ => rfl
      · exact inductionHypothesis polling fun other member =>
          there other (List.mem_cons_of_mem _ member)

theorem returns_resetVirtualScheduleTime (polling : Polling u s) (divisible : u.Divisible) :
    Returns resetVirtualScheduleTime s fun _ t => Polling u t := by
  unfold resetVirtualScheduleTime
  have started : Polling u { s with
      witnessSchedule := { s.witnessSchedule with currentVirtualTime := 0 } } :=
    ⟨polling.ballots, polling.dgp, polling.scheduled, polling.voted⟩
  refine .write (.read (.loop (fun listed member t polling => ?_) started))
  have there : (t.witnesses.find? listed.owner).isSome := by
    rw [← Table.mem_map_key, polling.owners, ← started.owners]
    exact List.mem_map_of_mem member
  obtain ⟨witness, found⟩ := Option.isSome_iff_exists.mp there
  obtain ⟨lap, divided⟩ :=
    Witness.exists_lapTime (polling.divisible divisible witness (Table.mem_of_find? found))
  have again : t.witnesses.find? witness.owner = some witness :=
    Table.find?_of_mem (Table.mem_of_find? found)
  exact ⟨(), _, modifyWitness_eq_ok.mpr ⟨witness, _, found,
    except_bind_eq_ok.mpr ⟨lap, divided, rfl⟩, rfl⟩, polling.replace again rfl⟩

theorem returns_getScheduled (there : ∀ name ∈ names, (s.witnesses.find? name).isSome) :
    Returns (getScheduled names) s fun _ t => t = s := by
  induction names with
  | nil => exact .done rfl
  | cons name rest inductionHypothesis =>
    obtain ⟨witness, found⟩ := Option.isSome_iff_exists.mp (there name List.mem_cons_self)
    unfold getScheduled
    refine .after (getWitness_eq_ok.mpr ⟨found, rfl⟩) (.bind (inductionHypothesis fun other member =>
      there other (List.mem_cons_of_mem _ member)) fun _ t same => .done same)

end Update

/-! ### The selection -/

/-- The witnesses that have a key to sign with. -/
def ChainState.keyedWitnesses (state : ChainState) : List Witness :=
  state.witnesses.objects.filter fun witness => decide (witness.signingKey ≠ default)

/-- A selection of witnesses as it should be. -/
structure Selected (u : ChainState) (names : List AccountName) : Prop where
  nodup : names.Nodup
  keyed : ∀ name ∈ names, ∃ witness ∈ u.keyedWitnesses, witness.owner = name
  length : names.length = min 21 u.keyedWitnesses.length
  voted : ∀ name ∈ u.votedWitnessNames, name ∈ names

/-- The walk along the virtual schedule passes witnesses, and adds some that have a key. -/
theorem mem_selectRunners (voted : List AccountName) (witnesses : List Witness) (count : Nat)
    (time : UInt128) :
    (∀ name ∈ (selectRunners voted witnesses count time).processed,
        name ∈ witnesses.map Witness.owner) ∧
      ∀ name ∈ (selectRunners voted witnesses count time).added,
        ∃ witness ∈ witnesses, witness.owner = name ∧ witness.signingKey ≠ default := by
  induction witnesses generalizing count time with
  | nil => exact ⟨List.forall_mem_nil _, List.forall_mem_nil _⟩
  | cons witness rest inductionHypothesis =>
    have later {name : AccountName}
        (found : ∃ other ∈ rest, other.owner = name ∧ other.signingKey ≠ default) :
        ∃ other ∈ witness :: rest, other.owner = name ∧ other.signingKey ≠ default := by
      obtain ⟨other, member, isKeyed⟩ := found
      exact ⟨other, List.mem_cons_of_mem _ member, isKeyed⟩
    unfold selectRunners
    split
    · exact ⟨List.forall_mem_nil _, List.forall_mem_nil _⟩
    · dsimp only
      split
      · next adds =>
        obtain ⟨passed, added⟩ := inductionHypothesis (count + 1) witness.virtualScheduledTime
        refine ⟨List.forall_mem_cons.mpr ⟨List.mem_cons_self, fun name member =>
          List.mem_cons_of_mem _ (passed name member)⟩, List.forall_mem_cons.mpr ⟨?_, fun name member =>
            later (added name member)⟩⟩
        exact ⟨witness, List.mem_cons_self, rfl, (of_decide_eq_true adds).1⟩
      · obtain ⟨passed, added⟩ := inductionHypothesis count witness.virtualScheduledTime
        exact ⟨List.forall_mem_cons.mpr ⟨List.mem_cons_self, fun name member =>
          List.mem_cons_of_mem _ (passed name member)⟩, fun name member => later (added name member)⟩

/-- It adds as many as it finds, up to twenty-one in all. -/
theorem length_selectRunners (voted : List AccountName) (witnesses : List Witness) (count : Nat)
    (time : UInt128) : (selectRunners voted witnesses count time).added.length =
      min (21 - count) (witnesses.countP fun witness =>
        decide (witness.signingKey ≠ default ∧ witness.owner ∉ voted)) := by
  induction witnesses generalizing count time with
  | nil => simp [selectRunners]
  | cons witness rest inductionHypothesis =>
    unfold selectRunners
    split
    · next full => simp [Nat.sub_eq_zero_of_le full]
    · next room =>
      rw [List.countP_cons]
      dsimp only
      split
      · rw [List.length_cons, inductionHypothesis]
        omega
      · exact inductionHypothesis count _

/-- The names of the witnesses that have a key, those with the most votes first. -/
def ChainState.keyedByVotes (state : ChainState) : List AccountName :=
  (state.witnessesByVoteName.filter fun witness => decide (witness.signingKey ≠ default)).map
    Witness.owner

theorem ChainState.perm_keyedByVotes (state : ChainState) :
    state.keyedByVotes.Perm (state.keyedWitnesses.map Witness.owner) :=
  ((List.perm_insertionSort _ _).filter _).map _

theorem nodup_keyedByVotes (state : ChainState) : state.keyedByVotes.Nodup := by
  have owners : (state.keyedWitnesses.map Witness.owner).Nodup :=
    state.witnesses.distinct.sublist (List.filter_sublist.map _)
  exact state.perm_keyedByVotes.nodup_iff.mpr owners

/-- What is not among the first of distinct names is among the others. -/
theorem filter_notMem_take (distinct : names.Nodup) (count : Nat) :
    names.filter (fun name => decide (name ∉ names.take count)) = names.drop count := by
  have split := List.take_append_drop count names
  rw [← split, List.nodup_append] at distinct
  obtain ⟨_, _, apart⟩ := distinct
  have early : (names.take count).filter (fun name => decide (name ∉ names.take count)) = [] :=
    List.filter_eq_nil_iff.mpr fun name member => by simp [member]
  have late : (names.drop count).filter (fun name => decide (name ∉ names.take count)) =
      names.drop count :=
    List.filter_eq_self.mpr fun name member => by
      simpa using fun first => apart name first name member rfl
  calc names.filter (fun name => decide (name ∉ names.take count))
      = (names.take count ++ names.drop count).filter
          (fun name => decide (name ∉ names.take count)) := by rw [split]
    _ = names.drop count := by rw [List.filter_append, early, late, List.nil_append]

theorem countP_of_polling {s : ChainState} (polling : Polling u s)
    (voted : u.votedWitnessNames = u.keyedByVotes.take 20) :
    (s.witnessesByScheduleTime.countP fun witness =>
      decide (witness.signingKey ≠ default ∧ witness.owner ∉ u.votedWitnessNames)) =
        u.keyedWitnesses.length - 20 := by
  have ballots (witnesses : List Witness) : (witnesses.countP fun witness =>
      decide (witness.signingKey ≠ default ∧ witness.owner ∉ u.votedWitnessNames)) =
        (witnesses.map Witness.ballot).countP fun ballot =>
          decide (ballot.2.1 ≠ default ∧ ballot.1 ∉ u.votedWitnessNames) := by
    rw [List.countP_map]
    rfl
  have names : (u.witnesses.objects.countP fun witness =>
      decide (witness.signingKey ≠ default ∧ witness.owner ∉ u.votedWitnessNames)) =
        (u.keyedWitnesses.map Witness.owner).countP fun name =>
          decide (name ∉ u.votedWitnessNames) := by
    rw [List.countP_map, ChainState.keyedWitnesses, List.countP_filter]
    refine List.countP_congr fun witness _ => ?_
    simp [and_comm]
  calc (s.witnessesByScheduleTime.countP fun witness =>
      decide (witness.signingKey ≠ default ∧ witness.owner ∉ u.votedWitnessNames))
      = s.witnesses.objects.countP fun witness =>
          decide (witness.signingKey ≠ default ∧ witness.owner ∉ u.votedWitnessNames) :=
        (List.perm_insertionSort _ _).countP_eq _
    _ = u.witnesses.objects.countP fun witness =>
          decide (witness.signingKey ≠ default ∧ witness.owner ∉ u.votedWitnessNames) := by
        rw [ballots, ballots, polling.ballots]
    _ = u.keyedByVotes.countP fun name => decide (name ∉ u.keyedByVotes.take 20) := by
        rw [names, voted]
        exact (u.perm_keyedByVotes.countP_eq _).symm
    _ = u.keyedWitnesses.length - 20 := by
        rw [List.countP_eq_length_filter, filter_notMem_take (nodup_keyedByVotes u),
          List.length_drop, u.perm_keyedByVotes.length_eq, List.length_map]

/-! ### What the update relies on -/

/-- What holds of the witnesses and the schedule wherever a chain gets. -/
structure ChainState.Schedulable (state : ChainState) : Prop where
  divisible : state.Divisible
  scheduled : ∀ name ∈ state.witnessSchedule.scheduledWitnesses, (state.witnesses.find? name).isSome
  voted : state.witnessSchedule.maxVotedWitnesses = 20

section Selection

variable {u s : ChainState}

theorem ChainState.Schedulable.votedWitnessNames_eq (schedulable : u.Schedulable) :
    u.votedWitnessNames = u.keyedByVotes.take 20 := by
  unfold ChainState.votedWitnessNames
  rw [schedulable.voted]
  rfl

theorem isSome_of_keyed (keyed : witness ∈ u.keyedWitnesses) :
    (u.witnesses.find? witness.owner).isSome :=
  Table.mem_map_key.mp (List.mem_map_of_mem (List.mem_of_mem_filter keyed))

theorem ChainState.Schedulable.keyed_of_voted (schedulable : u.Schedulable)
    (member : name ∈ u.votedWitnessNames) : ∃ witness ∈ u.keyedWitnesses, witness.owner = name := by
  rw [schedulable.votedWitnessNames_eq] at member
  exact List.mem_map.mp (u.perm_keyedByVotes.mem_iff.mp (List.mem_of_mem_take member))

/-- A witness with a key that the update comes across had it before. -/
theorem Polling.keyed (polling : Polling u s) (member : witness ∈ s.witnesses)
    (key : witness.signingKey ≠ default) : ∃ old ∈ u.keyedWitnesses, old.owner = witness.owner := by
  obtain ⟨old, isOld, same⟩ := polling.mem member
  have sameKey : old.signingKey = witness.signingKey := congrArg (fun ballot => ballot.2.1) same
  refine ⟨old, List.mem_filter.mpr ⟨isOld, decide_eq_true ?_⟩, congrArg Prod.fst same⟩
  rwa [sameKey]

/-- The selection is made, of witnesses with a key, and of as many as there can be. -/
theorem returns_selectWitnesses (schedulable : u.Schedulable) :
    Returns selectWitnesses u fun selection t => Polling u t ∧
      selection.1 = u.votedWitnessNames ∧
      (∀ name ∈ selection.2.1, ∃ witness ∈ u.keyedWitnesses, witness.owner = name) ∧
      selection.2.1.length =
        min (21 - u.votedWitnessNames.length) (u.keyedWitnesses.length - 20) := by
  have there {name : AccountName} (keyed : ∃ witness ∈ u.keyedWitnesses, witness.owner = name) :
      (u.witnesses.find? name).isSome := by
    obtain ⟨witness, member, rfl⟩ := keyed
    exact isSome_of_keyed member
  unfold selectWitnesses
  refine .read (.bind (.loop (fun name member t polling => returns_updateWitness polling
    (there (schedulable.keyed_of_voted member)) fun _ => rfl) (Polling.refl u)) fun _ s polling =>
      .read ?_)
  obtain ⟨passed, added⟩ := mem_selectRunners u.votedWitnessNames s.witnessesByScheduleTime
    u.votedWitnessNames.length s.witnessSchedule.currentVirtualTime
  have length := length_selectRunners u.votedWitnessNames s.witnessesByScheduleTime
    u.votedWitnessNames.length s.witnessSchedule.currentVirtualTime
  rw [countP_of_polling polling schedulable.votedWitnessNames_eq] at length
  have keyed (name : AccountName) (member : name ∈ (selectRunners u.votedWitnessNames
      s.witnessesByScheduleTime u.votedWitnessNames.length
      s.witnessSchedule.currentVirtualTime).added) :
      ∃ witness ∈ u.keyedWitnesses, witness.owner = name := by
    obtain ⟨witness, listed, rfl, key⟩ := added name member
    exact polling.keyed ((List.perm_insertionSort _ _).mem_iff.mp listed) key
  have processed (name : AccountName) (member : name ∈ (selectRunners u.votedWitnessNames
      s.witnessesByScheduleTime u.votedWitnessNames.length
      s.witnessSchedule.currentVirtualTime).processed) : (u.witnesses.find? name).isSome := by
    rw [← Table.mem_map_key, ← polling.owners]
    exact ((List.perm_insertionSort _ _).map _).mem_iff.mp (passed name member)
  refine .bind (.loop (fun name member t polling => returns_updateWitness polling
    (there (keyed name member)) fun _ => rfl) polling) fun _ s polling => ?_
  refine .bind (returns_advanceProcessed polling schedulable.divisible processed)
    fun overflows t polling => ?_
  cases overflows with
  | true =>
    exact .bind (returns_resetVirtualScheduleTime polling schedulable.divisible) fun _ t polling =>
      .done ⟨polling, rfl, keyed, length⟩
  | false => exact .done ⟨polling, rfl, keyed, length⟩

theorem returns_selected (schedulable : u.Schedulable) :
    Returns selectWitnesses u fun selection t =>
      Polling u t ∧ Selected u (selection.1 ++ selection.2.1) := by
  obtain ⟨selection, t, run, polling, elected, keyed, length⟩ := returns_selectWitnesses schedulable
  refine ⟨selection, t, run, polling, nodup_selected run, fun name member => ?_, ?_, fun name voted => ?_⟩
  · rcases List.mem_append.mp member with voted | added
    · rw [elected] at voted
      exact schedulable.keyed_of_voted voted
    · exact keyed name added
  · have voted : u.votedWitnessNames.length = min 20 u.keyedWitnesses.length := by
      rw [schedulable.votedWitnessNames_eq, List.length_take, u.perm_keyedByVotes.length_eq,
        List.length_map]
    rw [List.length_append, elected, length]
    omega
  · rw [elected]
    exact List.mem_append_left _ voted

end Selection

/-! ### The new schedule -/

section Renewal

variable {u t : ChainState}

/-- The witnesses that are scheduled. -/
def ChainState.scheduled (state : ChainState) : List Witness :=
  state.witnessSchedule.scheduledWitnesses.filterMap state.witnesses.find?

/-- What the update does once the selection is made. -/
theorem updateWitnessSchedule4_eq_ok (run : updateWitnessSchedule4 u = .ok () t) :
    ∃ elected added time middle version medians, selectWitnesses u = .ok (elected, added, time) middle ∧
      t.witnesses = middle.witnesses ∧
      t.witnessSchedule = { middle.witnessSchedule.renewed elected added time version middle.dgp with
        medianProps := medians } ∧
      (∀ name ∈ t.witnessSchedule.scheduledWitnesses, (t.witnesses.find? name).isSome) ∧
      version = majorityVersion (middle.scheduled.map Witness.runningVersion)
        middle.witnessSchedule.hardforkRequiredWitnesses middle.witnessSchedule.majorityVersion ∧
      t.hardforks = middle.hardforks.counted (majorityVote
        (middle.scheduled.map fun witness => ⟨witness.hardforkVersionVote, witness.hardforkTimeVote⟩)
        middle.witnessSchedule.hardforkRequiredWitnesses) := by
  simp only [updateWitnessSchedule4, updateMedianWitnessProps, bind_eq_ok, get_eq_ok,
    modify_eq_ok] at run
  obtain ⟨⟨elected, added, time⟩, middle, selected, _, _, ⟨rfl, rfl⟩, witnesses, _, read, _, _, rfl,
    _, _, ⟨rfl, rfl⟩, active, _, scheduled, rfl⟩ := run
  obtain ⟨rfl, counted⟩ := getScheduled_eq_ok read
  obtain ⟨rfl, found⟩ := getScheduled_eq_ok scheduled
  obtain rfl : middle.scheduled = witnesses := by
    simpa [ChainState.scheduled, List.filterMap_map] using congrArg (List.filterMap id) counted
  refine ⟨elected, added, time, middle, _, _, selected, rfl, rfl, fun name member => ?_, rfl, rfl⟩
  obtain ⟨witness, _, isWitness⟩ := List.mem_map.mp (found ▸ List.mem_map_of_mem member)
  exact Option.isSome_of_mem isWitness.symm

end Renewal

/-! ### The invariant -/

theorem Enlists.schedulable {s t : ChainState} (enlists : Enlists s t)
    (same : t.witnessSchedule = s.witnessSchedule) (schedulable : s.Schedulable) : t.Schedulable := by
  refine ⟨enlists.divisible schedulable.divisible, fun name member => ?_, ?_⟩
  · rw [same] at member
    exact enlists.there name (schedulable.scheduled name member)
  · rw [same]
    exact schedulable.voted

theorem schedulable_initGenesis (liquid dollar : ShareType) :
    (initGenesis liquid dollar).Schedulable := by
  refine ⟨fun witness member => ?_, fun name member => ?_, rfl⟩
  · obtain rfl := List.mem_singleton.mp member
    decide
  · obtain rfl : name = AccountName.genesis := List.mem_singleton.mp member
    rfl

instance : Respects (Keeping ChainState.Schedulable) updateWitnessSchedule where
  related s _ t run schedulable := by
    have enlisting : Respects Enlists updateWitnessSchedule := inferInstance
    have enlists := enlisting.related s _ t run
    replace run := get_bind_eq_ok.mp run
    rcases whenever_eq_ok.mp run with ⟨_, updated⟩ | ⟨_, rfl⟩
    · obtain ⟨elected, added, time, middle, version, medians, selected, _, renewed, there, _⟩ :=
        updateWitnessSchedule4_eq_ok updated
      obtain ⟨_, _, selected', polling, _⟩ := returns_selected schedulable
      obtain ⟨rfl, rfl⟩ := EStateM.Result.ok.inj (selected.symm.trans selected')
      refine ⟨enlists.divisible schedulable.divisible, there, ?_⟩
      rw [renewed]
      exact polling.voted.trans schedulable.voted
    · exact schedulable

theorem schedulable_applyOperation (producing : Bool) (op : Operation)
    (valid : op.validate = .ok ()) :
    Respects (Keeping ChainState.Schedulable) (applyOperation producing op) where
  related s _ t run := by
    have unwritten : Part.witnessSchedule ∉ op.footprint := by
      cases op <;> exact of_decide_eq_true rfl
    exact ((enlists_applyOperation producing valid).related s _ t run).schedulable
      ((within_applyOperation producing op).related s _ t run .witnessSchedule unwritten)

theorem schedulable_blockStep (step : BlockStep) :
    Respects (Keeping ChainState.Schedulable) step.run := by
  by_cases written : Part.witnessSchedule ∈ step.footprint
  · cases step with
    | witnessSchedule =>
      exact inferInstanceAs (Respects (Keeping ChainState.Schedulable) updateWitnessSchedule)
    | _ => exact absurd written (of_decide_eq_false rfl)
  · refine ⟨fun s _ t run => ?_⟩
    exact ((enlists_blockStep step).related s _ t run).schedulable
      ((within_blockStep step).related s _ t run .witnessSchedule written)

theorem schedulable_of_arrives {liquid dollar : ShareType} {step : BlockStep}
    (arrives : Arrives (initGenesis liquid dollar) step u) : u.Schedulable := by
  refine arrives.invariant (schedulable_initGenesis liquid dollar)
    schedulable_applyOperation schedulable_blockStep fun trx => ?_
  exact respects_create fun s added _ =>
    @Enlists.schedulable s { s with transactions := added } (enlists_of_witnesses rfl) rfl

/-! ### The update -/

/-- A schedule as the update should leave it. -/
structure Rescheduled (u t : ChainState) : Prop where
  distinct : t.witnessSchedule.scheduledWitnesses.Nodup
  keyed : ∀ name ∈ t.witnessSchedule.scheduledWitnesses, ∃ witness,
    t.witnesses.find? name = some witness ∧ witness.signingKey ≠ default
  count : t.witnessSchedule.numScheduledWitnesses = min 21 u.keyedWitnesses.length
  voted : ∀ name ∈ u.keyedByVotes.take 20, name ∈ t.witnessSchedule.scheduledWitnesses
  selected : ∃ elected added time middle, selectWitnesses u = .ok (elected, added, time) middle ∧
    t.witnessSchedule.scheduledWitnesses.Perm (elected ++ added)

section Update

variable {u t : ChainState}

theorem Selected.ne_nil (good : Selected u names) (keyed : u.keyedWitnesses ≠ []) : names ≠ [] := by
  have positive := List.length_pos_of_ne_nil keyed
  have length := good.length
  exact List.ne_nil_of_length_pos (by omega)

theorem perm_of_selected {elected added : List AccountName} (good : Selected u (elected ++ added))
    (keyed : u.keyedWitnesses ≠ []) (schedule : WitnessSchedule) (time : UInt128)
    (version : Version) (dgp : DynamicGlobalProperties) :
    (schedule.renewed elected added time version dgp).scheduledWitnesses.Perm (elected ++ added) := by
  have shuffled := perm_renewed schedule elected added time version dgp
  rwa [if_neg (good.ne_nil keyed)] at shuffled

/-- A schedule that the update leaves is as it should be. -/
theorem rescheduled_of_run (schedulable : u.Schedulable) (keyed : u.keyedWitnesses ≠ [])
    (run : updateWitnessSchedule4 u = .ok () t) : Rescheduled u t := by
  obtain ⟨elected, added, time, middle, version, medians, selected, same, renewed, _⟩ :=
    updateWitnessSchedule4_eq_ok run
  obtain ⟨_, _, selected', polling, good⟩ := returns_selected schedulable
  obtain ⟨rfl, rfl⟩ := EStateM.Result.ok.inj (selected.symm.trans selected')
  have perm : t.witnessSchedule.scheduledWitnesses.Perm (elected ++ added) := by
    rw [renewed]
    exact perm_of_selected good keyed middle.witnessSchedule time version middle.dgp
  refine ⟨perm.nodup_iff.mpr good.nodup, fun name member => ?_, ?_, fun name member => ?_,
    elected, added, time, middle, selected, perm⟩
  · obtain ⟨old, isKeyed, rfl⟩ := good.keyed name (perm.mem_iff.mp member)
    obtain ⟨isOld, key⟩ := List.mem_filter.mp isKeyed
    obtain ⟨witness, found, ballot⟩ := polling.find? isOld
    have sameKey : witness.signingKey = old.signingKey := congrArg (fun ballot => ballot.2.1) ballot
    refine ⟨witness, ?_, ?_⟩
    · rw [same]
      exact found
    · rw [sameKey]
      exact of_decide_eq_true key
  · rw [renewed, ← good.length]
    exact max_eq_left (List.length_pos_of_ne_nil (good.ne_nil keyed))
  · rw [← schedulable.votedWitnessNames_eq] at member
    exact perm.mem_iff.mpr (good.voted name member)

theorem finishes_updateWitnessSchedule4 (schedulable : u.Schedulable)
    (keyed : u.keyedWitnesses ≠ []) : Finishes updateWitnessSchedule4 u := by
  have finishes : Returns updateWitnessSchedule4 u fun _ _ => True := by
    unfold updateWitnessSchedule4
    refine (returns_selected schedulable).bind fun selection middle => ?_
    rintro ⟨polling, good⟩
    obtain ⟨elected, added, time⟩ := selection
    have scheduled (name : AccountName)
        (member : name ∈ middle.witnessSchedule.scheduledWitnesses) :
        (middle.witnesses.find? name).isSome := by
      rw [polling.scheduled] at member
      exact polling.isSome (schedulable.scheduled name member)
    refine .read ((returns_getScheduled scheduled).bind ?_)
    rintro witnesses _ rfl
    refine .write ?_
    unfold updateMedianWitnessProps
    refine .read ((returns_getScheduled fun name member => ?_).bind fun _ _ _ =>
      ⟨_, _, rfl, trivial⟩)
    -- the new schedule names witnesses with a key
    have selected := (perm_of_selected good keyed _ _ _ _).mem_iff.mp member
    obtain ⟨witness, isKeyed, rfl⟩ := good.keyed name selected
    exact polling.isSome (isSome_of_keyed isKeyed)
  obtain ⟨_, t, run, _⟩ := finishes
  exact ⟨_, t, run⟩

/-- The update of the schedule ends well exactly when some witness has a key. -/
theorem reschedules_iff_keyed {liquid dollar : ShareType}
    (arrives : Arrives (initGenesis liquid dollar) .witnessSchedule u) :
    (∃ t, updateWitnessSchedule4 u = .ok () t ∧ Rescheduled u t) ↔
      ∃ witness ∈ u.witnesses, witness.signingKey ≠ default := by
  have schedulable := schedulable_of_arrives arrives
  constructor
  · rintro ⟨t, run, good⟩
    obtain ⟨elected, added, _, middle, version, _, _, _, renewed, _⟩ :=
      updateWitnessSchedule4_eq_ok run
    -- the schedule has at least one place
    have count : 1 ≤ t.witnessSchedule.numScheduledWitnesses := by
      rw [renewed]
      exact le_max_right _ _
    rw [good.count] at count
    obtain ⟨witness, isKeyed⟩ := List.exists_mem_of_length_pos (lt_of_lt_of_le count (min_le_right _ _))
    obtain ⟨member, key⟩ := List.mem_filter.mp isKeyed
    exact ⟨witness, member, of_decide_eq_true key⟩
  · rintro ⟨witness, member, key⟩
    have keyed : u.keyedWitnesses ≠ [] :=
      List.ne_nil_of_mem (List.mem_filter.mpr ⟨member, decide_eq_true key⟩)
    obtain ⟨_, t, run⟩ := finishes_updateWitnessSchedule4 schedulable keyed
    exact ⟨t, run, rescheduled_of_run schedulable keyed run⟩

end Update

/-! ### A chain whose last key goes -/

/-- The genesis witness takes its key away, or puts it back. -/
def keyChange (key : PublicKey) : SignedTransaction where
  id := 1
  refBlockNum := 0
  refBlockPrefix := 0
  expiration := genesisTime + 120
  operations := [.witnessUpdate ⟨AccountName.genesis, [104], key, ⟨0, true, 65536, 0⟩, ⟨0, .liquid⟩⟩]
  signatures := [genesisPublicKey]

/-- What a chain of the genesis witness does up to the update of the schedule in its twenty-first
block, which changes the key. -/
def untilSchedule (key : PublicKey) : Chain Unit := do
  forM (genesisBlocks default [] 20) (applyBlock {} false)
  openBlock {} false (genesisBlock ⟨20, 1⟩ [keyChange key])
  forM [.blockSummary (genesisBlock ⟨20, 1⟩ [keyChange key]), .expiredTransactions, .expiredOrders,
    .expiredDelegations] BlockStep.run

theorem arrives_untilSchedule {key : PublicKey} {v : Unit}
    (run : untilSchedule key genesis = .ok v u) : Arrives genesis .witnessSchedule u := by
  obtain ⟨_, s, blocks, rest⟩ := bind_eq_ok.mp run
  exact ⟨reachable_of_forM rfl .start blocks, {}, false, _, rfl, _, _, rfl, rest⟩

/-- The update succeeds when the key is changed to itself. -/
theorem keptKey_reschedules :
    ∃ u t, Arrives genesis .witnessSchedule u ∧ updateWitnessSchedule4 u = .ok () t ∧
      Rescheduled u t := by
  have finished : ∃ v u, untilSchedule genesisPublicKey genesis = .ok v u ∧
      ∃ witness ∈ u.witnesses.objects, witness.signingKey ≠ default := by decide +kernel
  obtain ⟨_, u, run, keyed⟩ := finished
  obtain ⟨t, updated, good⟩ := (reschedules_iff_keyed (arrives_untilSchedule run)).mpr keyed
  exact ⟨u, t, arrives_untilSchedule run, updated, good⟩

/-- Once the last witness has taken its key away, the update that is due throws. -/
theorem lostKey_throws :
    ∃ u, Arrives genesis .witnessSchedule u ∧ u.dgp.headBlockNumber % 21 = 0 ∧
      ¬ ∃ t, updateWitnessSchedule4 u = .ok () t := by
  have finished : ∃ v u, untilSchedule default genesis = .ok v u ∧
      u.dgp.headBlockNumber % 21 = 0 ∧ ¬ Finishes updateWitnessSchedule4 u := by decide +kernel
  obtain ⟨_, u, run, due, stuck⟩ := finished
  refine ⟨u, arrives_untilSchedule run, due, ?_⟩
  rintro ⟨t, updated⟩
  exact stuck ⟨(), t, updated⟩

end Zattera
