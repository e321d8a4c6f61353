/-
This file shows what becomes of the sessions of an index over whole runs. The
records of two sessions in a row merge into the records of one, which is what
`squash` leaves, so in every index that can be reached the stack keeps track of a
chain of earlier indices. Undoing a session therefore gives back the index before
it, and undoing a squashed session gives back what undoing both would have.
-/

import Zattera.Proof.Undo

namespace Zattera

/-! ### Merging two sessions -/

namespace UndoState

variable {Value : Type} {start : Nat → Option (Entry Value)}

/-- A loop whose turns each record the change of one object. -/
theorem Records.foldl {Item : Type} {turn : UndoState Value → Item → UndoState Value}
    {state : UndoState Value} {items : List Item} (middle now : Nat → Option (Entry Value))
    (place : Item → Nat) (distinct : (items.map place).Nodup)
    (step : ∀ state current, ∀ item ∈ items, state.Records start current →
      current (place item) = middle (place item) →
        (turn state item).Records start (Function.update current (place item) (now (place item))))
    {current : Nat → Option (Entry Value)} (records : state.Records start current)
    (agree : ∀ item ∈ items, current (place item) = middle (place item)) :
    (items.foldl turn state).Records start
      fun id => if id ∈ items.map place then now id else current id := by
  induction items generalizing state current with
  | nil => exact records
  | cons item rest inductionHypothesis =>
    rw [List.map_cons, List.nodup_cons] at distinct
    obtain ⟨unseen, distinct⟩ := distinct
    have later := inductionHypothesis distinct
      (fun state current other member => step state current other (List.mem_cons_of_mem _ member))
      (step state current item List.mem_cons_self records (agree item List.mem_cons_self))
      (fun other member => by
        have different : place other ≠ place item :=
          fun same => unseen (same ▸ List.mem_map_of_mem member)
        rw [Function.update_of_ne different]
        exact agree other (List.mem_cons_of_mem _ member))
    refine Eq.mp (congrArg _ (funext fun id => ?_)) later
    by_cases same : id = place item
    · subst same
      simp only [Function.update_self, ite_self, List.map_cons, List.mem_cons, true_or, if_true]
    · simp only [Function.update_of_ne same, List.map_cons, List.mem_cons, same, false_or]

variable {middle now : Nat → Option (Entry Value)} {newest state : UndoState Value}
  {current : Nat → Option (Entry Value)}

theorem Records.merge_old (records : state.Records start current)
    (after : newest.Records middle now)
    (agree : ∀ id, (newest.oldValues.find? id).isSome → current id = middle id) :
    (newest.oldValues.objects.foldl onModify state).Records start
      fun id => if (newest.oldValues.find? id).isSome then now id else current id := by
  simp only [← Table.mem_map_key] at agree ⊢
  refine records.foldl middle now Entry.id newest.oldValues.distinct ?_
    fun old member => agree old.id (List.mem_map_of_mem member)
  intro state current old member records same
  obtain ⟨was, changed⟩ := after.of_old member
  obtain ⟨value, found⟩ := Option.isSome_iff_exists.mp changed
  exact records.modify (same.trans was) ((Function.update_self ..).trans found)
    fun id different => Function.update_of_ne different ..

theorem Records.merge_new (records : state.Records start current)
    (after : newest.Records middle now)
    (unknown : ∀ id, middle id = none → (now id).isSome → start id = none)
    (agree : ∀ id, (newest.newIds.find? id).isSome → current id = middle id) :
    (newest.newIds.objects.foldl
      (fun state id => { state with newIds := state.newIds.insertNew id }) state).Records start
      fun id => if (newest.newIds.find? id).isSome then now id else current id := by
  simp only [← Table.mem_map_key] at agree ⊢
  refine records.foldl middle now id newest.newIds.distinct ?_
    fun id member => agree id (List.mem_map_of_mem member)
  intro state current place member records same
  obtain ⟨_, absent, made⟩ :=
    (after place).of_new (Table.mem_map_key.mp (List.mem_map_of_mem member))
  obtain ⟨value, found⟩ := Option.isSome_iff_exists.mp made
  exact records.create (unknown place absent made) (same.trans absent) value
    ((Function.update_self ..).trans found) fun id different => Function.update_of_ne different ..

theorem Records.merge_removed (records : state.Records start current)
    (after : newest.Records middle now)
    (agree : ∀ id, (newest.removedValues.find? id).isSome → current id = middle id) :
    (newest.removedValues.objects.foldl onRemove state).Records start
      fun id => if (newest.removedValues.find? id).isSome then now id else current id := by
  simp only [← Table.mem_map_key] at agree ⊢
  refine records.foldl middle now Entry.id newest.removedValues.distinct ?_
    fun old member => agree old.id (List.mem_map_of_mem member)
  intro state current old member records same
  obtain ⟨was, gone⟩ := after.of_removed member
  exact records.remove (same.trans was) ((Function.update_self ..).trans gone)
    fun id different => Function.update_of_ne different ..

/-- What two sessions in a row have recorded, merged. An object that is new in the second session
was not there at the start of the first. -/
theorem Records.merge {previous : UndoState Value} (before : previous.Records start middle)
    (after : newest.Records middle now)
    (unknown : ∀ id, middle id = none → (now id).isSome → start id = none) :
    (GenericIndex.merge previous newest).Records start now := by
  have created := (before.merge_old after fun id _ => rfl).merge_new after unknown fun id isNew => by
    rw [((after id).of_new isNew).1]
    rfl
  have removed := created.merge_removed after fun id isRemoved => by
    obtain ⟨was, found⟩ := Option.isSome_iff_exists.mp isRemoved
    have fate := after id
    rw [found] at fate
    obtain ⟨notNew, notOld, _⟩ := fate.of_deleted
    rw [notNew, notOld]
    rfl
  refine Eq.mp (congrArg _ (funext fun id => ?_)) removed
  exact (after id).merged

end UndoState

/-! ### The stack of a reachable index -/

namespace GenericIndex

section Squash

variable {Value : Type} {previous newest : UndoState Value}

theorem oldNextId_foldl {Item : Type} {turn : UndoState Value → Item → UndoState Value}
    (same : ∀ state item, (turn state item).oldNextId = state.oldNextId) (items : List Item)
    (state : UndoState Value) : (items.foldl turn state).oldNextId = state.oldNextId := by
  induction items generalizing state with
  | nil => rfl
  | cons item rest inductionHypothesis => exact (inductionHypothesis _).trans (same state item)

theorem oldNextId_merge : (merge previous newest).oldNextId = previous.oldNextId := by
  unfold merge
  rw [oldNextId_foldl UndoState.oldNextId_onRemove]
  refine (oldNextId_foldl ?_ _ _).trans (oldNextId_foldl UndoState.oldNextId_onModify _ _)
  exact fun _ _ => rfl

end Squash

variable {Value Key : Type} {keys : List (Entry Value → Key)}
  {before middle index next : GenericIndex keys} {head previous newest : UndoState Value}

theorem squash_of_single (single : index.stack = [head]) :
    index.squash = { index with stack := [] } := by
  unfold squash
  rw [single]

theorem squash_of_parent {rest : List (UndoState Value)}
    (stack : index.stack = newest :: previous :: rest) :
    index.squash =
      { index with stack := merge previous newest :: rest, revision := index.revision - 1 } := by
  unfold squash
  rw [stack]

/-- A session squashed into the one it was started in. -/
theorem InSession.squash (outer : InSession before middle previous)
    (inner : InSession middle index newest) (fresh : before.Fresh) :
    InSession before index.squash (merge previous newest) := by
  have stack := inner.stack.trans (congrArg _ outer.stack)
  rw [squash_of_parent stack]
  refine ⟨rfl, outer.records.merge inner.records ?_, oldNextId_merge.trans outer.oldNextId, ?_,
    outer.grows.trans inner.grows, fun id below absent => ?_⟩
  · -- An object that appears in the newest session has an id no object had before.
    intro id absent appears
    by_cases below : id < middle.nextId
    · rw [inner.stays id below absent] at appears
      cases appears
    · exact fresh id (outer.grows.trans (Nat.le_of_not_lt below))
  · change index.revision - 1 = before.revision + 1
    rw [inner.revision, outer.revision, Int.add_sub_cancel]
  · exact inner.stays id (below.trans_le outer.grows) (outer.stays id below absent)

/-- The sessions of an index keep track of a chain of earlier ones. -/
inductive Backed : GenericIndex keys → Prop
  | base {index : GenericIndex keys} : index.stack = [] → index.Fresh → Backed index
  | session {before index : GenericIndex keys} {head : UndoState Value} :
    Backed before → InSession before index head → index.Fresh → Backed index

theorem Backed.fresh (backed : index.Backed) : index.Fresh := by
  cases backed with
  | base _ fresh => exact fresh
  | session _ _ fresh => exact fresh

theorem SameIndex.inSession (same : SameIndex next index) (session : InSession before index head) :
    InSession before next head where
  stack := same.stack.trans session.stack
  records id := same.objects id ▸ session.records id
  oldNextId := session.oldNextId
  revision := same.revision.trans session.revision
  grows := same.nextId ▸ session.grows
  stays id below absent := (same.objects id).trans (session.stays id below absent)

theorem SameIndex.fresh (same : SameIndex next index) (fresh : index.Fresh) : next.Fresh :=
  fun id above => (same.objects id).trans (fresh id (same.nextId ▸ above))

theorem Backed.of_same (backed : index.Backed) (same : SameIndex next index) : next.Backed := by
  cases backed with
  | base empty fresh => exact .base (same.stack.trans empty) (same.fresh fresh)
  | session below session fresh =>
    exact .session below (same.inSession session) (same.fresh fresh)

theorem Backed.squash (backed : index.Backed) : index.squash.Backed := by
  cases backed with
  | base empty fresh =>
    unfold GenericIndex.squash
    rw [empty]
    exact .base empty fresh
  | session below inner fresh =>
    cases below with
    | base empty _ =>
      rw [squash_of_single (inner.stack.trans (congrArg _ empty))]
      exact .base rfl fresh
    | session lower outer _ =>
      refine .session lower (outer.squash inner lower.fresh) ?_
      rw [squash_of_parent (inner.stack.trans (congrArg _ outer.stack))]
      exact fresh

theorem rdropWhile_cons {α : Type} (drop : α → Bool) (item : α) (rest : List α) :
    (item :: rest).rdropWhile drop = [] ∨
      (item :: rest).rdropWhile drop = item :: rest.rdropWhile drop := by
  unfold List.rdropWhile
  rw [List.reverse_cons, List.dropWhile_append]
  split
  · next all =>
    rw [List.isEmpty_iff] at all
    rw [all, List.dropWhile_cons]
    split
    · exact .inl rfl
    · exact .inr rfl
  · exact .inr (List.reverse_append ..)

theorem Backed.commit (backed : index.Backed) (revision : Int) : (index.commit revision).Backed := by
  induction backed with
  | base empty fresh =>
    refine .base ?_ fresh
    change List.rdropWhile _ _ = []
    rw [empty]
    rfl
  | session _ session fresh inductionHypothesis =>
    -- Where the newest session stays, the commit has dropped the same sessions under it.
    rcases rdropWhile_cons (fun state : UndoState Value => state.revision ≤ revision) _ _
      with all | stays <;> rw [← session.stack] at *
    · exact .base all fresh
    · exact .session inductionHypothesis
        ⟨stays, session.records, session.oldNextId, session.revision, session.grows, session.stays⟩
        fresh

variable [DecidableEq Key]

theorem stack_apply {step : IndexStep Value} (empty : index.stack = [])
    (applied : step.apply index = some next) : next.stack = [] := by
  have nothing : ∀ change, index.record change = [] := by
    intro change
    unfold record
    rw [empty]
  rcases apply_cases applied with rfl | ⟨_, created⟩ | ⟨_, _, changed⟩ | ⟨_, removed⟩
  · exact empty
  · obtain ⟨_, _, stack, _⟩ := emplace?_eq_some created
    exact stack.trans (nothing _)
  · obtain ⟨_, _, _, stack, _⟩ := modify?_eq_some changed
    exact stack.trans (nothing _)
  · obtain ⟨_, _, stack, _⟩ := remove?_eq_some removed
    exact stack.trans (nothing _)

theorem Backed.apply {step : IndexStep Value} (backed : index.Backed)
    (applied : step.apply index = some next) : next.Backed := by
  cases backed with
  | base empty fresh =>
    exact .base (stack_apply empty applied) (fresh.apply applied)
  | session below session fresh =>
    obtain ⟨head, session⟩ := session.apply below.fresh fresh applied
    exact .session below session (fresh.apply applied)

theorem Backed.undo (backed : index.Backed) (undoing : index.undo? = some next) : next.Backed := by
  cases backed with
  | base empty fresh =>
    unfold undo? at undoing
    rw [empty] at undoing
    cases undoing
    exact .base empty fresh
  | session below session fresh => exact below.of_same (session.undo undoing)

theorem backed_of_reachable (reachable : index.Reachable) : index.Backed := by
  induction reachable with
  | empty => exact .base rfl fun _ _ => rfl
  | apply step _ applied inductionHypothesis => exact inductionHypothesis.apply applied
  | start _ inductionHypothesis =>
    obtain ⟨head, session⟩ := inSession_startUndoSession _
    exact .session inductionHypothesis session inductionHypothesis.fresh
  | undo _ undoing inductionHypothesis => exact inductionHypothesis.undo undoing
  | squash _ inductionHypothesis => exact inductionHypothesis.squash
  | commit revision _ inductionHypothesis => exact inductionHypothesis.commit revision
  | setRevision revision _ set inductionHypothesis =>
    unfold setRevision? at set
    split at set
    · next empty =>
      cases set
      exact .base (List.isEmpty_iff.mp empty) inductionHypothesis.fresh
    · cases set

/-! ### Undoing a session, and a squashed one -/

theorem exists_session_of_run {steps : List (IndexStep Value)} (reachable : before.Reachable)
    (ran : IndexStep.run steps before.startUndoSession = some index) :
    ∃ head, InSession before index head := by
  have fresh := (backed_of_reachable reachable).fresh
  obtain ⟨head, session⟩ := inSession_startUndoSession before
  exact session.run fresh fresh ran

/-- Whatever is done in a session, `undo` returns and gives back the objects under the same ids, the
next id, the revision and the sessions before it. -/
theorem undo_restores {last : GenericIndex keys} (steps : List (IndexStep Value))
    (reachable : before.Reachable) (ran : IndexStep.run steps before.startUndoSession = some last)
    (rule : HandsNoKey before.indices last.indices) :
    ∃ undone, last.undo? = some undone ∧ SameIndex undone before := by
  obtain ⟨head, session⟩ := exists_session_of_run reachable ran
  obtain ⟨undone, undoing⟩ := session.exists_undo rule
  exact ⟨undone, undoing, session.undo undoing⟩

/-- What `squash` is to do with a session that was started on `base`: the objects stay; undoing the
merged session gives what undoing the newest session and then its parent gives; and a session
without a parent leaves the revision that was there before it. The keys are not handed over in
either session or across them. -/
structure Squashes (base last : GenericIndex keys) : Prop where
  objects : ∀ id, last.squash.indices.find? id = last.indices.find? id
  merged : ∀ (before : GenericIndex keys) (steps : List (IndexStep Value)), before.Reachable →
    IndexStep.run steps before.startUndoSession = some base →
    HandsNoKey before.indices base.indices → HandsNoKey base.indices last.indices →
    HandsNoKey before.indices last.indices →
    ∃ once twice undone, last.undo? = some once ∧ once.undo? = some twice ∧
      last.squash.undo? = some undone ∧ SameIndex undone twice
  alone : base.stack = [] → last.squash.revision = base.revision

omit [DecidableEq Key] in
theorem indices_squash (index : GenericIndex keys) : index.squash.indices = index.indices := by
  unfold squash
  split <;> rfl

omit [DecidableEq Key] in
theorem HandsNoKey.congr {start last other : MultiIndex keys} (rule : HandsNoKey start last)
    (same : ∀ id, other.find? id = last.find? id) : HandsNoKey start other := by
  intro old isOld entry member different still
  refine rule old isOld entry ?_ different (same old.id ▸ still)
  exact Table.mem_of_find? ((same entry.id).symm.trans (Table.find?_of_mem member))

omit [DecidableEq Key] in
theorem SameIndex.symm {first second : GenericIndex keys} (same : SameIndex first second) :
    SameIndex second first :=
  ⟨fun id => (same.objects id).symm, same.nextId.symm, same.revision.symm, same.stack.symm⟩

omit [DecidableEq Key] in
theorem SameIndex.trans {first second third : GenericIndex keys} (same : SameIndex first second)
    (next : SameIndex second third) : SameIndex first third :=
  ⟨fun id => (same.objects id).trans (next.objects id), same.nextId.trans next.nextId,
    same.revision.trans next.revision, same.stack.trans next.stack⟩

/-- Undoing two sessions one after the other, or squashed into one. -/
theorem InSession.undo_squash {last : GenericIndex keys} (outer : InSession before middle previous)
    (inner : InSession middle last newest) (fresh : before.Fresh)
    (outerRule : HandsNoKey before.indices middle.indices)
    (innerRule : HandsNoKey middle.indices last.indices)
    (rule : HandsNoKey before.indices last.indices) :
    ∃ once twice undone, last.undo? = some once ∧ once.undo? = some twice ∧
      last.squash.undo? = some undone ∧ SameIndex undone twice := by
  obtain ⟨once, undoing⟩ := inner.exists_undo innerRule
  have same := inner.undo undoing
  have session := same.inSession outer
  obtain ⟨twice, undoingMore⟩ := session.exists_undo (outerRule.congr same.objects)
  have merged := outer.squash inner fresh
  obtain ⟨undone, undoingMerged⟩ := merged.exists_undo (by rwa [indices_squash])
  exact ⟨once, twice, undone, undoing, undoingMore, undoingMerged,
    (merged.undo undoingMerged).trans (session.undo undoingMore).symm⟩

/-- `squash` does what it is to do exactly where the session has a parent: without one, the session
goes and its revision number stays. -/
theorem squashes_iff_parent {base last : GenericIndex keys} (steps : List (IndexStep Value))
    (reachable : base.Reachable) (ran : IndexStep.run steps base.startUndoSession = some last) :
    Squashes base last ↔ base.stack ≠ [] := by
  obtain ⟨newest, inner⟩ := exists_session_of_run reachable ran
  constructor
  · intro squashes alone
    have kept := squashes.alone alone
    rw [squash_of_single (inner.stack.trans (congrArg _ alone))] at kept
    change last.revision = base.revision at kept
    rw [inner.revision] at kept
    omega
  · intro parent
    refine ⟨fun id => by rw [indices_squash], ?_, fun alone => absurd alone parent⟩
    intro before steps earlier ranBefore outerRule innerRule rule
    obtain ⟨previous, outer⟩ := exists_session_of_run earlier ranBefore
    exact outer.undo_squash inner (backed_of_reachable earlier).fresh outerRule innerRule rule

/-! ### A modification that violates a uniqueness constraint -/

omit [DecidableEq Key] in
/-- A loop that looks up one object in each turn, and adds none, comes to its end only when all of
them are there at its start. -/
theorem isSome_of_foldlM {Item : Type} {turn : MultiIndex keys → Item → Option (MultiIndex keys)}
    (place : Item → Nat)
    (step : ∀ indices next item, turn indices item = some next →
      (indices.find? (place item)).isSome ∧
        ∀ id, (next.find? id).isSome → (indices.find? id).isSome)
    {items : List Item} {indices last : MultiIndex keys}
    (ran : items.foldlM turn indices = some last) :
    (∀ item ∈ items, (indices.find? (place item)).isSome) ∧
      ∀ id, (last.find? id).isSome → (indices.find? id).isSome := by
  induction items generalizing indices with
  | nil =>
    cases ran
    exact ⟨List.forall_mem_nil _, fun _ => id⟩
  | cons item rest inductionHypothesis =>
    simp only [List.foldlM_cons, Option.bind_eq_bind, Option.bind_eq_some_iff] at ran
    obtain ⟨middle, taken, ran⟩ := ran
    obtain ⟨there, adds⟩ := step indices middle item taken
    obtain ⟨others, addsLater⟩ := inductionHypothesis ran
    refine ⟨List.forall_mem_cons.mpr ⟨there, fun other member => ?_⟩, fun id found => ?_⟩
    · exact adds _ (others other member)
    · exact adds id (addsLater id found)

omit [DecidableEq Key] in
theorem eraseNew_there {indices after : MultiIndex keys} {place : Nat}
    (erased : eraseNew indices place = some after) :
    (indices.find? place).isSome ∧ ∀ id, (after.find? id).isSome → (indices.find? id).isSome := by
  refine ⟨(find?_eraseNew erased place).1, fun id found => ?_⟩
  rw [(find?_eraseNew erased id).2] at found
  split at found
  · cases found
  · exact found

theorem restoreOld_there {indices after : MultiIndex keys} {old : Entry Value}
    (restored : restoreOld indices old = some after) :
    (indices.find? old.id).isSome ∧ ∀ id, (after.find? id).isSome → (indices.find? id).isSome := by
  have there : (indices.find? old.id).isSome := by
    simp only [restoreOld, Option.bind_eq_bind, Option.bind_eq_some_iff] at restored
    obtain ⟨entry, found, _⟩ := restored
    rw [found]
    rfl
  refine ⟨there, fun id found => ?_⟩
  rw [find?_restoreOld restored id] at found
  split at found
  · next same => rwa [same]
  · exact found

/-- Where the newest session has recorded an object as new or as modified that is not there, `undo`
meets the end of the container. -/
theorem undo?_eq_none_of_gone {rest : List (UndoState Value)} {id : Nat}
    (newest : index.stack = head :: rest) (gone : index.indices.find? id = none)
    (recorded : (head.newIds.find? id).isSome ∨ (head.oldValues.find? id).isSome) :
    index.undo? = none := by
  rw [Option.eq_none_iff_forall_ne_some]
  intro undone undoing
  unfold undo? at undoing
  rw [newest] at undoing
  simp only [Option.bind_eq_bind, Option.bind_eq_some_iff] at undoing
  obtain ⟨restored, restoring, kept, erasing, _⟩ := undoing
  obtain ⟨olds, adds⟩ := isSome_of_foldlM Entry.id (fun _ _ _ => restoreOld_there) restoring
  obtain ⟨news, _⟩ := isSome_of_foldlM (fun place : Nat => place) (fun _ _ _ => eraseNew_there)
    erasing
  have there : (index.indices.find? id).isSome := by
    rcases recorded with isNew | isOld
    · obtain ⟨place, found⟩ := Option.isSome_iff_exists.mp isNew
      obtain ⟨member, rfl⟩ := Table.find?_eq_some_iff.mp found
      exact adds _ (news place member)
    · obtain ⟨old, found⟩ := Option.isSome_iff_exists.mp isOld
      obtain ⟨member, rfl⟩ := Table.find?_eq_some_iff.mp found
      exact olds old member
  rw [gone] at there
  cases there

omit [DecidableEq Key] in
/-- A modification is recorded, unless the object is new in the session. -/
theorem isSome_onModify (head : UndoState Value) (entry : Entry Value) :
    ((head.onModify entry).newIds.find? entry.id).isSome ∨
      ((head.onModify entry).oldValues.find? entry.id).isSome := by
  unfold UndoState.onModify
  split
  · next isNew => exact .inl isNew
  · refine .inr ?_
    change ((head.oldValues.insertNew entry).find? entry.id).isSome
    rw [Table.find?_insertNew, if_pos rfl]
    rfl

/-- What a modification in a session is to do when its new value violates a uniqueness constraint:
it throws, the object keeps its old value, and `undo` of the session gives back what was there
before it. -/
def SurvivesModify (before index : GenericIndex keys) (id : Nat) (change : Value → Value) : Prop :=
  ∀ entry, index.indices.find? id = some entry →
    ¬ index.indices.Fits ⟨id, change entry.value⟩ →
      ∃ after, index.modify id change = some (false, after) ∧
        after.indices.find? id = some entry ∧
        ∃ undone, after.undo? = some undone ∧ SameIndex undone before

/-- A modification that violates a uniqueness constraint throws, and the object is gone. -/
theorem modify_of_not_fits {id : Nat} {change : Value → Value} {entry : Entry Value}
    (found : index.indices.find? id = some entry)
    (violates : ¬ index.indices.Fits ⟨id, change entry.value⟩) :
    index.modify id change = some (false, { index with
      stack := index.record fun head => head.onModify entry
      indices := index.indices.erase id }) := by
  unfold modify MultiIndex.modify MultiIndex.modify?
  simp [found, violates]

theorem gone_of_not_fits {id : Nat} {change : Value → Value} {entry : Entry Value}
    (session : InSession before index head) (found : index.indices.find? id = some entry)
    (violates : ¬ index.indices.Fits ⟨id, change entry.value⟩) :
    ∃ after, index.modify id change = some (false, after) ∧ after.indices.find? id = none ∧
      after.undo? = none := by
  have gone : (index.indices.erase id).find? id = none := by
    rw [MultiIndex.find?_erase, if_pos rfl]
  refine ⟨_, modify_of_not_fits found violates, gone, ?_⟩
  refine undo?_eq_none_of_gone (session.record _) gone ?_
  have isId := MultiIndex.id_of_find? found
  subst isId
  exact isSome_onModify head entry

/-- A modification does what it is to do exactly where its new value violates no constraint: if it
does, the object is erased, and `undo` of the session meets an object that is not there. -/
theorem survives_iff_fits {id : Nat} {change : Value → Value} {entry : Entry Value}
    (steps : List (IndexStep Value)) (reachable : before.Reachable)
    (ran : IndexStep.run steps before.startUndoSession = some index)
    (found : index.indices.find? id = some entry) :
    (SurvivesModify before index id change ↔ index.indices.Fits ⟨id, change entry.value⟩) ∧
      (¬ index.indices.Fits ⟨id, change entry.value⟩ →
        ∃ after, index.modify id change = some (false, after) ∧ after.indices.find? id = none ∧
          after.undo? = none) := by
  obtain ⟨head, session⟩ := exists_session_of_run reachable ran
  refine ⟨⟨fun survives => ?_, fun fits other isOther violates => ?_⟩,
    gone_of_not_fits session found⟩
  · by_contra violates
    obtain ⟨after, thrown, gone, _⟩ := gone_of_not_fits session found violates
    obtain ⟨kept, again, still, _⟩ := survives entry found violates
    rw [thrown] at again
    cases again
    rw [gone] at still
    cases still
  · rw [found] at isOther
    cases isOther
    exact absurd fits violates

theorem Reachable.run (reachable : index.Reachable) (steps : List (IndexStep Value))
    (ran : IndexStep.run steps index = some next) : next.Reachable := by
  unfold IndexStep.run at ran
  induction steps generalizing index with
  | nil =>
    cases ran
    exact reachable
  | cons step steps inductionHypothesis =>
    simp only [List.foldlM_cons, Option.bind_eq_bind, Option.bind_eq_some_iff] at ran
    obtain ⟨middle, applied, rest⟩ := ran
    exact inductionHypothesis (reachable.apply step applied) rest

end GenericIndex

/-! ### Two accounts -/

/-- The names of accounts are unique. -/
def accountNames : List (Entry String → String) := [Entry.value]

/-- Two accounts are created. -/
def accountCreation : List (IndexStep String) := [.create fun _ => "alice", .create fun _ => "bob"]

/-- An account is removed and its name taken by a new one; another one is renamed twice, and a
creation under its name fails. -/
def accountSession : List (IndexStep String) :=
  [.remove 0, .create fun _ => "alice", .modify 1 fun _ => "carol", .create fun _ => "carol",
    .modify 1 fun _ => "dan"]

namespace GenericIndex

theorem undo_restores_accounts : ∃ before last : GenericIndex accountNames,
    IndexStep.run accountCreation .empty = some before ∧
    IndexStep.run accountSession before.startUndoSession = some last ∧
    ∃ undone, last.undo? = some undone ∧ SameIndex undone before :=
  ⟨_, _, rfl, rfl,
    undo_restores accountSession (Reachable.empty.run accountCreation rfl) rfl (by decide)⟩

/-- The accounts are created in one session, and the rest is done in a second one. -/
theorem accountSession_squashes : ∃ base last : GenericIndex accountNames,
    IndexStep.run accountCreation (startUndoSession .empty) = some base ∧
    IndexStep.run accountSession base.startUndoSession = some last ∧ Squashes base last := by
  refine ⟨_, _, rfl, rfl, ?_⟩
  refine (squashes_iff_parent accountSession ?_ rfl).mpr (List.cons_ne_nil _ _)
  exact Reachable.empty.start.run accountCreation rfl

/-- The accounts are created in a session that has no parent: the revision stays at 1. -/
theorem accountCreation_not_squashes : ∃ last : GenericIndex accountNames,
    IndexStep.run accountCreation (startUndoSession .empty) = some last ∧
    last.squash.stack = [] ∧ last.squash.revision = 1 ∧ ¬ Squashes .empty last := by
  refine ⟨_, rfl, rfl, rfl, fun squashes => ?_⟩
  exact absurd (squashes.alone rfl) (by decide)

/-- A rename in the session, and one to a name that nobody has. -/
theorem rename_survives : ∃ before index : GenericIndex accountNames,
    IndexStep.run accountCreation .empty = some before ∧
    IndexStep.run accountSession before.startUndoSession = some index ∧
    index.indices.Fits ⟨1, "erin"⟩ ∧ SurvivesModify before index 1 fun _ => "erin" := by
  refine ⟨_, _, rfl, rfl, by decide, ?_⟩
  refine (@survives_iff_fits _ _ _ _ _ _ 1 (fun _ => "erin") ⟨1, "dan"⟩ accountSession ?_ rfl
    rfl).1.mpr (by decide)
  exact Reachable.empty.run accountCreation rfl

/-- The second account is given the name of the first. -/
theorem rename_erases : ∃ before after : GenericIndex accountNames,
    IndexStep.run accountCreation .empty = some before ∧
    before.startUndoSession.modify 1 (fun _ => "alice") = some (false, after) ∧
    after.indices.find? 1 = none ∧ after.undo? = none ∧
    ¬ SurvivesModify before before.startUndoSession 1 fun _ => "alice" := by
  refine ⟨_, _, rfl, rfl, by decide, by decide, fun survives => ?_⟩
  obtain ⟨kept, again, still, _⟩ := survives ⟨1, "bob"⟩ rfl (by decide)
  cases again
  exact absurd still (by decide)

end GenericIndex

end Zattera
