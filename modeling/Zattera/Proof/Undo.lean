/-
This file shows that `undo` takes back whatever was done in a session. What a
session records of an object is its fate: it is new, updated, deleted, or nothing
has happened to it. Each operation keeps the fates in step with the objects at
the start of the session and now, so they are after any sequence of operations;
from them `undo` restores the objects at the start, provided no object now holds
a key that another one, still there, had then.
-/

import Zattera.Chainbase.GenericIndex

namespace Zattera

/-! ### The fate of one object -/

/-- What a session has recorded of one object (whether it is new, its old value, its removed value),
against what it was at the start and what it is now. -/
inductive Fate {α : Type} : Bool → Option α → Option α → Option α → Option α → Prop
  | untouched (object : Option α) : Fate false none none object object
  | new (value : α) : Fate true none none none (some value)
  | updated (was value : α) : Fate false (some was) none (some was) (some value)
  | deleted (was : α) : Fate false none (some was) (some was) none

namespace Fate

variable {α : Type} {isNew : Bool} {old removed start : Option α} {object : α}

theorem modify_new (fate : Fate true old removed start (some object)) (value : α) :
    Fate true old removed start (some value) := by
  cases fate with
  | new => exact .new value

theorem modify (fate : Fate false old removed start (some object)) (value : α) :
    Fate false (some (old.getD object)) removed start (some value) := by
  cases fate with
  | untouched => exact .updated object value
  | updated was => exact .updated was value

theorem remove_new (fate : Fate true old removed start (some object)) :
    Fate false old removed start none := by
  cases fate with
  | new => exact .untouched none

theorem remove_updated {was : α} (fate : Fate false (some was) removed start (some object)) :
    Fate false none (some (removed.getD was)) start none := by
  cases fate with
  | updated => exact .deleted was

theorem remove_untouched (fate : Fate false none removed start (some object)) :
    Fate false none (some (removed.getD object)) start none := by
  cases fate with
  | untouched => exact .deleted object

theorem create (fate : Fate isNew old removed none none) (value : α) :
    Fate true old removed none (some value) := by
  cases fate with
  | untouched => exact .new value

theorem of_updated {now : Option α} {was : α} (fate : Fate isNew (some was) removed start now) :
    start = some was ∧ now.isSome := by
  cases fate with
  | updated => exact ⟨rfl, rfl⟩

theorem of_new {now : Option α} (fate : Fate isNew old removed start now) (new : isNew) :
    old = none ∧ start = none ∧ now.isSome := by
  subst new
  cases fate with
  | new => exact ⟨rfl, rfl, rfl⟩

theorem of_deleted {now : Option α} {was : α} (fate : Fate isNew old (some was) start now) :
    isNew = false ∧ old = none ∧ start = some was ∧ now = none := by
  cases fate with
  | deleted => exact ⟨rfl, rfl, rfl, rfl⟩

/-- What is left of an object when its old value is back and new objects are erased. -/
theorem kept {now : Option α} (fate : Fate isNew old removed start now) :
    (if isNew then none else if old.isSome then start else now) =
      if removed.isSome then none else start := by
  cases fate <;> rfl

/-- An object that is in none of the three records is what it was. -/
theorem merged {now : Option α} (fate : Fate isNew old removed start now) :
    (if removed.isSome then now else if isNew then now else if old.isSome then now else start) =
      now := by
  cases fate <;> rfl

end Fate

/-! ### What a session records -/

namespace UndoState

variable {Value : Type}

/-- The fates of all objects, between the start of the session and now. -/
def Records (head : UndoState Value) (start now : Nat → Option (Entry Value)) : Prop :=
  ∀ id, Fate (head.newIds.find? id).isSome (head.oldValues.find? id) (head.removedValues.find? id)
    (start id) (now id)

/-- A session that has just started. -/
theorem records_start (start : Nat → Option (Entry Value)) (nextId : Nat) (revision : Int) :
    (UndoState.mk .empty .empty .empty nextId revision).Records start start :=
  fun id => .untouched (start id)

theorem oldNextId_onModify (head : UndoState Value) (entry : Entry Value) :
    (head.onModify entry).oldNextId = head.oldNextId := by
  unfold onModify
  split <;> rfl

theorem oldNextId_onRemove (head : UndoState Value) (entry : Entry Value) :
    (head.onRemove entry).oldNextId = head.oldNextId := by
  unfold onRemove
  split
  · rfl
  · split <;> rfl

variable {head : UndoState Value} {start now next : Nat → Option (Entry Value)}

theorem Records.modify {entry : Entry Value} (records : head.Records start now)
    (found : now entry.id = some entry) {value : Entry Value} (changed : next entry.id = some value)
    (others : ∀ id, id ≠ entry.id → next id = now id) :
    (head.onModify entry).Records start next := by
  intro id
  have fate := records id
  by_cases same : id = entry.id
  · subst same
    rw [found] at fate
    rw [changed]
    unfold UndoState.onModify
    split
    · next isNew =>
      rw [isNew] at fate ⊢
      exact fate.modify_new value
    · next isOld =>
      rw [Bool.not_eq_true] at isOld
      rw [isOld] at fate ⊢
      rw [Table.find?_insertNew, if_pos rfl]
      exact fate.modify value
  · rw [others id same]
    unfold UndoState.onModify
    split
    · exact fate
    · rw [Table.find?_insertNew, if_neg same]
      exact fate

theorem Records.remove {entry : Entry Value} (records : head.Records start now)
    (found : now entry.id = some entry) (gone : next entry.id = none)
    (others : ∀ id, id ≠ entry.id → next id = now id) :
    (head.onRemove entry).Records start next := by
  intro id
  have fate := records id
  by_cases same : id = entry.id
  · subst same
    rw [found] at fate
    rw [gone]
    unfold UndoState.onRemove
    split
    · next isNew =>
      rw [isNew] at fate
      rw [Table.find?_erase_self]
      exact fate.remove_new
    · next isOld =>
      rw [Bool.not_eq_true] at isOld
      rw [isOld] at fate
      split
      · next old recorded =>
        rw [recorded] at fate
        rw [isOld, Table.find?_erase_self, Table.find?_insertNew,
          if_pos (Table.key_of_find? recorded).symm]
        exact fate.remove_updated
      · next unrecorded =>
        rw [unrecorded] at fate
        rw [isOld, unrecorded, Table.find?_insertNew, if_pos rfl]
        exact fate.remove_untouched
  · rw [others id same]
    unfold UndoState.onRemove
    split
    · rw [Table.find?_erase_of_ne same]
      exact fate
    · split
      · next old recorded =>
        rw [Table.find?_insertNew, Table.find?_erase_of_ne same,
          if_neg (by rwa [Table.key_of_find? recorded])]
        exact fate
      · rw [Table.find?_insertNew, if_neg same]
        exact fate

theorem Records.create {place : Nat} (records : head.Records start now)
    (unknown : start place = none) (absent : now place = none) (value : Entry Value)
    (made : next place = some value) (others : ∀ id, id ≠ place → next id = now id) :
    ({ head with newIds := head.newIds.insertNew place } : UndoState Value).Records start next := by
  intro id
  have fate := records id
  rw [Table.find?_insertNew, id_eq]
  by_cases same : id = place
  · subst same
    rw [unknown, absent] at fate
    rw [if_pos rfl, unknown, made]
    exact fate.create value
  · rw [others id same, if_neg same]
    exact fate

theorem Records.of_old {old : Entry Value} (records : head.Records start now)
    (member : old ∈ head.oldValues) : start old.id = some old ∧ (now old.id).isSome := by
  have fate := records old.id
  rw [Table.find?_of_mem member] at fate
  exact fate.of_updated

theorem Records.of_removed {old : Entry Value} (records : head.Records start now)
    (member : old ∈ head.removedValues) : start old.id = some old ∧ now old.id = none := by
  have fate := records old.id
  rw [Table.find?_of_mem member] at fate
  exact fate.of_deleted.2.2

end UndoState

/-! ### A session as it goes on -/

namespace GenericIndex

variable {Value Key : Type} {keys : List (Entry Value → Key)}

/-- Every object has an id below the next one. -/
def Fresh (index : GenericIndex keys) : Prop :=
  ∀ id, index.nextId ≤ id → index.indices.find? id = none

/-- The index, with a session open that was started on an earlier one. -/
structure InSession (before index : GenericIndex keys) (head : UndoState Value) : Prop where
  stack : index.stack = head :: before.stack
  records : head.Records before.indices.find? index.indices.find?
  oldNextId : head.oldNextId = before.nextId
  revision : index.revision = before.revision + 1
  grows : before.nextId ≤ index.nextId
  stays : ∀ id, id < before.nextId → before.indices.find? id = none → index.indices.find? id = none

theorem inSession_startUndoSession (before : GenericIndex keys) :
    ∃ head, InSession before before.startUndoSession head :=
  ⟨_, rfl, UndoState.records_start before.indices.find? _ _, rfl, rfl, le_rfl, fun _ _ => id⟩

variable {before index next : GenericIndex keys} {head : UndoState Value}

theorem InSession.record (session : InSession before index head)
    (change : UndoState Value → UndoState Value) :
    index.record change = change head :: before.stack := by
  unfold GenericIndex.record
  rw [session.stack]

theorem remove?_eq_some {id : Nat} (removed : index.remove? id = some next) :
    ∃ entry, index.indices.find? entry.id = some entry ∧
      next.stack = index.record (fun head => head.onRemove entry) ∧
      next.revision = index.revision ∧ next.nextId = index.nextId ∧
      ∀ id, next.indices.find? id = if id = entry.id then none else index.indices.find? id := by
  simp only [remove?, Option.bind_eq_bind, Option.bind_eq_some_iff, Option.pure_def,
    Option.some.injEq] at removed
  obtain ⟨entry, found, rfl⟩ := removed
  have isId := MultiIndex.id_of_find? found
  subst isId
  exact ⟨entry, found, rfl, rfl, rfl, fun id => MultiIndex.find?_erase _ id⟩

theorem InSession.remove {id : Nat} (session : InSession before index head)
    (removed : index.remove? id = some next) : ∃ head, InSession before next head := by
  obtain ⟨entry, found, stack, revision, nextId, lookup⟩ := remove?_eq_some removed
  refine ⟨_, stack.trans (session.record _), ?_, ?_, revision.trans session.revision,
    nextId ▸ session.grows, fun id below absent => ?_⟩
  · exact session.records.remove found ((lookup _).trans (if_pos rfl))
      fun id different => (lookup id).trans (if_neg different)
  · exact (UndoState.oldNextId_onRemove ..).trans session.oldNextId
  · rw [lookup, session.stays id below absent, ite_self]

variable [DecidableEq Key]

theorem emplace?_eq_some {make : Nat → Value} (created : index.emplace? make = some next) :
    ∃ entry : Entry Value, entry.id = index.nextId ∧
      next.stack = index.record (fun head => head.onCreate entry) ∧
      next.revision = index.revision ∧ next.nextId = index.nextId + 1 ∧
      ∀ id, next.indices.find? id =
        if id = index.nextId then some entry else index.indices.find? id := by
  simp only [emplace?, Option.bind_eq_bind, Option.bind_eq_some_iff, Option.pure_def,
    Option.some.injEq] at created
  obtain ⟨indices, added, rfl⟩ := created
  exact ⟨_, rfl, rfl, rfl, rfl, fun id => (MultiIndex.emplace?_eq_some added id).2⟩

theorem modify?_eq_some {id : Nat} {change : Value → Value}
    (changed : index.modify? id change = some next) :
    ∃ entry value, index.indices.find? entry.id = some entry ∧
      next.stack = index.record (fun head => head.onModify entry) ∧
      next.revision = index.revision ∧ next.nextId = index.nextId ∧
      ∀ id, next.indices.find? id =
        if id = entry.id then some value else index.indices.find? id := by
  simp only [modify?, Option.bind_eq_bind, Option.bind_eq_some_iff, Option.pure_def,
    Option.some.injEq] at changed
  obtain ⟨entry, found, indices, replaced, rfl⟩ := changed
  have isId := MultiIndex.id_of_find? found
  subst isId
  exact ⟨entry, ⟨entry.id, change entry.value⟩, found, rfl, rfl, rfl,
    MultiIndex.modify?_eq_some replaced found⟩

theorem InSession.create {make : Nat → Value} (session : InSession before index head)
    (wasFresh : before.Fresh) (fresh : index.Fresh) (created : index.emplace? make = some next) :
    ∃ head, InSession before next head := by
  obtain ⟨entry, isId, stack, revision, nextId, lookup⟩ := emplace?_eq_some created
  refine ⟨_, stack.trans (session.record _), ?_, session.oldNextId,
    revision.trans session.revision, ?_, fun id below absent => ?_⟩
  · unfold UndoState.onCreate
    rw [isId]
    exact session.records.create (wasFresh _ session.grows) (fresh _ le_rfl) entry
      ((lookup _).trans (if_pos rfl)) fun id different => (lookup id).trans (if_neg different)
  · rw [nextId]
    exact session.grows.trans (Nat.le_succ _)
  · rw [lookup, if_neg (below.trans_le session.grows).ne]
    exact session.stays id below absent

theorem InSession.modify {id : Nat} {change : Value → Value}
    (session : InSession before index head) (changed : index.modify? id change = some next) :
    ∃ head, InSession before next head := by
  obtain ⟨entry, value, found, stack, revision, nextId, lookup⟩ := modify?_eq_some changed
  refine ⟨_, stack.trans (session.record _), ?_, ?_, revision.trans session.revision,
    nextId ▸ session.grows, fun id below absent => ?_⟩
  · exact session.records.modify found ((lookup _).trans (if_pos rfl))
      fun id different => (lookup id).trans (if_neg different)
  · exact (UndoState.oldNextId_onModify ..).trans session.oldNextId
  · have gone := session.stays id below absent
    rw [lookup, if_neg]
    · exact gone
    · rintro rfl
      rw [gone] at found
      cases found

/-- What one operation can be: a failed creation, or one of the three. -/
theorem apply_cases {step : IndexStep Value} (applied : step.apply index = some next) :
    next = index ∨ (∃ make, index.emplace? make = some next) ∨
      (∃ id change, index.modify? id change = some next) ∨ ∃ id, index.remove? id = some next := by
  cases step with
  | create make =>
    cases created : index.emplace? make with
    | none =>
      simp only [IndexStep.apply, created, Option.getD_none, Option.some.injEq] at applied
      exact .inl applied.symm
    | some index =>
      simp only [IndexStep.apply, created, Option.getD_some] at applied
      exact .inr (.inl ⟨make, created.trans applied⟩)
  | modify id change => exact .inr (.inr (.inl ⟨id, change, applied⟩))
  | remove id => exact .inr (.inr (.inr ⟨id, applied⟩))

theorem InSession.apply {step : IndexStep Value} (session : InSession before index head)
    (wasFresh : before.Fresh) (fresh : index.Fresh) (applied : step.apply index = some next) :
    ∃ head, InSession before next head := by
  rcases apply_cases applied with rfl | ⟨_, created⟩ | ⟨_, _, changed⟩ | ⟨_, removed⟩
  · exact ⟨head, session⟩
  · exact session.create wasFresh fresh created
  · exact session.modify changed
  · exact session.remove removed

theorem Fresh.apply {step : IndexStep Value} (fresh : index.Fresh)
    (applied : step.apply index = some next) : next.Fresh := by
  rcases apply_cases applied with rfl | ⟨_, created⟩ | ⟨_, _, changed⟩ | ⟨_, removed⟩
  · exact fresh
  · obtain ⟨entry, _, _, _, nextId, lookup⟩ := emplace?_eq_some created
    intro id above
    rw [nextId] at above
    rw [lookup, if_neg (by omega)]
    exact fresh id (Nat.le_of_succ_le above)
  · obtain ⟨entry, value, found, _, _, nextId, lookup⟩ := modify?_eq_some changed
    intro id above
    rw [nextId] at above
    rw [lookup, if_neg]
    · exact fresh id above
    · rintro rfl
      rw [fresh _ above] at found
      cases found
  · obtain ⟨entry, _, _, _, nextId, lookup⟩ := remove?_eq_some removed
    intro id above
    rw [nextId] at above
    rw [lookup, fresh id above, ite_self]

/-- The session after any sequence of operations in it. -/
theorem InSession.run {steps : List (IndexStep Value)} (session : InSession before index head)
    (wasFresh : before.Fresh) (fresh : index.Fresh)
    (ran : IndexStep.run steps index = some next) : ∃ head, InSession before next head := by
  unfold IndexStep.run at ran
  induction steps generalizing index head with
  | nil =>
    cases ran
    exact ⟨head, session⟩
  | cons step steps inductionHypothesis =>
    simp only [List.foldlM_cons, Option.bind_eq_bind, Option.bind_eq_some_iff] at ran
    obtain ⟨middle, applied, rest⟩ := ran
    obtain ⟨head, session⟩ := session.apply wasFresh fresh applied
    exact inductionHypothesis session (fresh.apply applied) rest

end GenericIndex

/-! ### The loops of `undo` -/

namespace GenericIndex

/-- A loop comes to its end when each turn can be taken and leaves what the others need. -/
theorem exists_foldlM {State Item : Type} {turn : State → Item → Option State}
    (Ready : List Item → State → Prop)
    (step : ∀ item rest state, Ready (item :: rest) state →
      ∃ next, turn state item = some next ∧ Ready rest next)
    {items : List Item} {state : State} (ready : Ready items state) :
    ∃ last, items.foldlM turn state = some last := by
  induction items generalizing state with
  | nil => exact ⟨state, rfl⟩
  | cons item rest inductionHypothesis =>
    obtain ⟨next, taken, ready⟩ := step item rest state ready
    obtain ⟨last, ran⟩ := inductionHypothesis ready
    exact ⟨last, by rw [List.foldlM_cons, taken]; exact ran⟩

variable {Value Key : Type} {keys : List (Entry Value → Key)}

/-- A loop whose turns each put one object in its place. -/
theorem find?_foldlM {Item : Type} {turn : MultiIndex keys → Item → Option (MultiIndex keys)}
    (place : Item → Nat) (goal : Nat → Option (Entry Value)) {put : Item → Option (Entry Value)}
    {items : List Item} {indices last : MultiIndex keys}
    (ran : items.foldlM turn indices = some last)
    (step : ∀ indices next item, turn indices item = some next → ∀ id, next.find? id =
      if id = place item then put item else indices.find? id)
    (aims : ∀ item ∈ items, put item = goal (place item)) (id : Nat) :
    last.find? id = if id ∈ items.map place then goal id else indices.find? id := by
  induction items generalizing indices with
  | nil =>
    cases ran
    rfl
  | cons item rest inductionHypothesis =>
    simp only [List.foldlM_cons, Option.bind_eq_bind, Option.bind_eq_some_iff] at ran
    obtain ⟨middle, taken, ran⟩ := ran
    rw [inductionHypothesis ran fun other member => aims other (List.mem_cons_of_mem _ member),
      step indices middle item taken, List.map_cons]
    by_cases same : id = place item
    · subst same
      simp only [if_true, List.mem_cons, true_or, aims item List.mem_cons_self, ite_self]
    · simp only [same, if_false, List.mem_cons, false_or]

theorem find?_eraseNew {indices next : MultiIndex keys} {id : Nat}
    (erased : eraseNew indices id = some next) (k : Nat) :
    (indices.find? id).isSome ∧ next.find? k = if k = id then none else indices.find? k := by
  simp only [eraseNew, Option.bind_eq_bind, Option.bind_eq_some_iff, Option.pure_def,
    Option.some.injEq] at erased
  obtain ⟨entry, found, rfl⟩ := erased
  exact ⟨by rw [found]; rfl, MultiIndex.find?_erase id k⟩

variable [DecidableEq Key]

theorem find?_restoreOld {indices next : MultiIndex keys} {old : Entry Value}
    (restored : restoreOld indices old = some next) (id : Nat) :
    next.find? id = if id = old.id then some old else indices.find? id := by
  simp only [restoreOld, Option.bind_eq_bind, Option.bind_eq_some_iff] at restored
  obtain ⟨entry, found, replaced⟩ := restored
  exact MultiIndex.modify?_eq_some replaced found id

/-- No object at the end holds a key that another one, still there, had at the start. This is what
remains at the end when no key that a modified, still existing object gives up is taken by another
object; the keys of removed objects may be taken. -/
def HandsNoKey (start last : MultiIndex keys) : Prop :=
  ∀ old ∈ start.entries.objects, ∀ entry ∈ last.entries.objects, old.id ≠ entry.id →
    (last.find? old.id).isSome → ¬ Clash keys old entry

instance (start last : MultiIndex keys) : Decidable (HandsNoKey start last) :=
  inferInstanceAs (Decidable (∀ old ∈ start.entries.objects, ∀ entry ∈ last.entries.objects, _))

variable {start last : MultiIndex keys}

/-- Old values go back into a container in which each object is as at the start or as at the end. -/
theorem exists_restoreOld (rule : HandsNoKey start last) {olds : List (Entry Value)}
    (known : ∀ old ∈ olds, start.find? old.id = some old ∧ (last.find? old.id).isSome) :
    ∃ restored, olds.foldlM restoreOld last = some restored := by
  refine exists_foldlM (fun olds indices =>
    (∀ old ∈ olds, start.find? old.id = some old ∧ (last.find? old.id).isSome) ∧
      (∀ id, (last.find? id).isSome → (indices.find? id).isSome) ∧
      ∀ id, indices.find? id = start.find? id ∨ indices.find? id = last.find? id) ?_
    ⟨known, fun _ => id, fun _ => .inr rfl⟩
  rintro old rest indices ⟨known, present, mixed⟩
  obtain ⟨isKnown, still⟩ := known old List.mem_cons_self
  obtain ⟨entry, found⟩ := Option.isSome_iff_exists.mp (present old.id still)
  have fits : indices.Fits old := by
    refine MultiIndex.fits_of_find? fun place other different another => ?_
    rcases mixed place with same | same <;> rw [same] at another
    · exact MultiIndex.not_clash isKnown another different.symm
    · refine rule old (Table.mem_of_find? isKnown) other (Table.mem_of_find? another) ?_ still
      rw [MultiIndex.id_of_find? another]
      exact different.symm
  obtain ⟨next, replaced⟩ := MultiIndex.exists_modify? fits
  have restored : restoreOld indices old = some next := by
    rw [restoreOld, found]
    exact replaced
  refine ⟨next, restored, fun other member => known other (List.mem_cons_of_mem _ member),
    fun id stillThere => ?_, fun id => ?_⟩
  · rw [find?_restoreOld restored]
    split
    · rfl
    · exact present id stillThere
  · rw [find?_restoreOld restored]
    split
    · next same => exact .inl (same ▸ isKnown.symm)
    · exact mixed id

omit [DecidableEq Key] in
theorem exists_eraseNew {ids : List Nat} (distinct : ids.Nodup)
    (present : ∀ id ∈ ids, (last.find? id).isSome) :
    ∃ kept, ids.foldlM eraseNew last = some kept := by
  refine exists_foldlM (fun ids indices => ids.Nodup ∧ ∀ id ∈ ids, (indices.find? id).isSome) ?_
    ⟨distinct, present⟩
  rintro id rest indices ⟨distinct, present⟩
  obtain ⟨entry, found⟩ := Option.isSome_iff_exists.mp (present id List.mem_cons_self)
  obtain ⟨unseen, distinct⟩ := List.nodup_cons.mp distinct
  have erased : eraseNew indices id = some (indices.erase id) := by
    rw [eraseNew, found]
    rfl
  refine ⟨_, erased, distinct, fun other member => ?_⟩
  have different : other ≠ id := fun same => unseen (same ▸ member)
  rw [(find?_eraseNew erased other).2, if_neg different]
  exact present other (List.mem_cons_of_mem _ member)

/-- Removed values go back into a container in which each object is as at the start. -/
theorem exists_emplace? {removed : List (Entry Value)} (distinct : (removed.map Entry.id).Nodup)
    (known : ∀ old ∈ removed, start.find? old.id = some old ∧ last.find? old.id = none)
    (part : ∀ id, last.find? id = start.find? id ∨ last.find? id = none) :
    ∃ restored, removed.foldlM MultiIndex.emplace? last = some restored := by
  refine exists_foldlM (fun removed indices => (removed.map Entry.id).Nodup ∧
    (∀ old ∈ removed, start.find? old.id = some old ∧ indices.find? old.id = none) ∧
      ∀ id, indices.find? id = start.find? id ∨ indices.find? id = none) ?_ ⟨distinct, known, part⟩
  rintro old rest indices ⟨distinct, known, part⟩
  obtain ⟨isKnown, absent⟩ := known old List.mem_cons_self
  obtain ⟨unseen, distinct⟩ := List.nodup_cons.mp distinct
  have fits : indices.Fits old := by
    refine MultiIndex.fits_of_find? fun place other different another => ?_
    rcases part place with same | same <;> rw [same] at another
    · exact MultiIndex.not_clash isKnown another different.symm
    · cases another
  obtain ⟨next, added⟩ := MultiIndex.exists_emplace? absent fits
  have lookup := fun id => (MultiIndex.emplace?_eq_some added id).2
  refine ⟨next, added, distinct, fun other member => ?_, fun id => ?_⟩
  · obtain ⟨otherKnown, otherAbsent⟩ := known other (List.mem_cons_of_mem _ member)
    have different : other.id ≠ old.id := fun same => unseen (same ▸ List.mem_map_of_mem member)
    exact ⟨otherKnown, (lookup other.id).trans ((if_neg different).trans otherAbsent)⟩
  · rw [lookup]
    split
    · next same => exact .inl (same ▸ isKnown.symm)
    · exact part id

/-! ### Undo -/

variable {head : UndoState Value} {indices restored kept : MultiIndex keys}

theorem find?_restored (records : head.Records start.find? indices.find?)
    (restoring : head.oldValues.objects.foldlM restoreOld indices = some restored) (k : Nat) :
    restored.find? k =
      if (head.oldValues.find? k).isSome then start.find? k else indices.find? k := by
  rw [find?_foldlM Entry.id start.find? restoring (fun _ _ _ => find?_restoreOld)
    fun old member => (records.of_old member).1.symm]
  simp only [Table.mem_map_key]

/-- What remains for the removed values to be put into. -/
theorem find?_kept (records : head.Records start.find? indices.find?)
    (restoring : head.oldValues.objects.foldlM restoreOld indices = some restored)
    (erasing : head.newIds.objects.foldlM eraseNew restored = some kept) (k : Nat) :
    kept.find? k = if (head.removedValues.find? k).isSome then none else start.find? k := by
  rw [find?_foldlM id (fun _ => none) erasing (fun _ _ _ erased k => (find?_eraseNew erased k).2)
    (fun _ _ => rfl), find?_restored records restoring, ← (records k).kept]
  simp only [Table.mem_map_key]

variable {before index undone : GenericIndex keys}

theorem undo?_eq_some {rest : List (UndoState Value)} (newest : index.stack = head :: rest)
    (undoing : index.undo? = some undone) :
    ∃ restored kept, head.oldValues.objects.foldlM restoreOld index.indices = some restored ∧
      head.newIds.objects.foldlM eraseNew restored = some kept ∧
      head.removedValues.objects.foldlM MultiIndex.emplace? kept = some undone.indices ∧
      undone.stack = rest ∧ undone.revision = index.revision - 1 ∧
      undone.nextId = head.oldNextId := by
  simp only [undo?, newest, Option.bind_eq_bind, Option.bind_eq_some_iff, Option.pure_def,
    Option.some.injEq] at undoing
  obtain ⟨restored, restoring, kept, erasing, indices, replacing, rfl⟩ := undoing
  exact ⟨restored, kept, restoring, erasing, replacing, rfl, rfl, rfl⟩

/-- What an index is after its newest session was undone: what it was before the session. -/
structure SameIndex (first second : GenericIndex keys) : Prop where
  objects : ∀ id, first.indices.find? id = second.indices.find? id
  nextId : first.nextId = second.nextId
  revision : first.revision = second.revision
  stack : first.stack = second.stack

/-- If `undo` returns, the index is what it was before the session. -/
theorem InSession.undo (session : InSession before index head)
    (undoing : index.undo? = some undone) : SameIndex undone before := by
  obtain ⟨restored, kept, restoring, erasing, replacing, stack, revision, nextId⟩ :=
    undo?_eq_some session.stack undoing
  refine ⟨fun k => ?_, nextId.trans session.oldNextId, ?_, stack⟩
  · rw [find?_foldlM Entry.id before.indices.find? replacing
      (fun _ _ _ added k => (MultiIndex.emplace?_eq_some added k).2)
      fun old member => (session.records.of_removed member).1.symm,
      find?_kept session.records restoring erasing]
    simp only [Table.mem_map_key]
    split <;> rfl
  · rw [revision, session.revision]
    exact Int.add_sub_cancel _ _

/-- `undo` returns if no key was handed over. -/
theorem InSession.exists_undo (session : InSession before index head)
    (rule : HandsNoKey before.indices index.indices) : ∃ undone, index.undo? = some undone := by
  have records := session.records
  obtain ⟨restored, restoring⟩ := exists_restoreOld rule fun old => records.of_old
  have distinctNew : head.newIds.objects.Nodup := by
    rw [← List.map_id head.newIds.objects]
    exact head.newIds.distinct
  obtain ⟨kept, erasing⟩ : ∃ kept, head.newIds.objects.foldlM eraseNew restored = some kept := by
    refine exists_eraseNew distinctNew fun id member => ?_
    rw [← List.map_id head.newIds.objects, Table.mem_map_key] at member
    obtain ⟨notOld, _, present⟩ := (records id).of_new member
    rw [find?_restored records restoring, notOld]
    exact present
  have isKept := find?_kept records restoring erasing
  obtain ⟨indices, replacing⟩ :
      ∃ indices, head.removedValues.objects.foldlM MultiIndex.emplace? kept = some indices := by
    refine exists_emplace? head.removedValues.distinct
      (fun old member => ⟨(records.of_removed member).1, ?_⟩) (fun k => ?_)
    · rw [isKept, if_pos (Table.mem_map_key.mp (List.mem_map_of_mem member))]
    · rw [isKept]
      split
      · exact .inr rfl
      · exact .inl rfl
  refine ⟨⟨before.stack, index.revision - 1, head.oldNextId, indices⟩, ?_⟩
  simp only [undo?, session.stack, restoring, erasing, replacing, Option.bind_eq_bind,
    Option.bind_some, Option.pure_def]

end GenericIndex

end Zattera
