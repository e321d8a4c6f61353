/-
This file models `generic_index` of chainbase: a container of objects under ids
and other unique keys, with a stack of undo sessions. A session keeps three
records, of the old values of modified objects, of removed objects and of the
ids of new ones; `undo` plays them back and `squash` merges the newest two. The
container carries the uniqueness of its keys, as the multi-index it stands for.
-/

import Mathlib.Data.List.DropRight
import Zattera.Lib.Table

namespace Zattera

/-! ### The container -/

/-- An object with the id that the index has given it. -/
structure Entry (Value : Type) where
  id : Nat
  value : Value
  deriving DecidableEq

/-- Objects under their ids. -/
abbrev Entries (Value : Type) := Table Nat (Entry Value) Entry.id

section Container

variable {Value Key : Type}

/-- Two objects agree on one of the unique keys. -/
def Clash (keys : List (Entry Value → Key)) (first second : Entry Value) : Prop :=
  ∃ key ∈ keys, key first = key second

instance [DecidableEq Key] (keys : List (Entry Value → Key)) (first second : Entry Value) :
    Decidable (Clash keys first second) :=
  inferInstanceAs (Decidable (∃ key ∈ keys, key first = key second))

theorem Clash.symm {keys : List (Entry Value → Key)} {first second : Entry Value}
    (clash : Clash keys first second) : Clash keys second first := by
  obtain ⟨key, member, same⟩ := clash
  exact ⟨key, member, same.symm⟩

/-- `boost::multi_index_container`: no two objects share an id or another unique key. -/
structure MultiIndex (keys : List (Entry Value → Key)) where
  entries : Entries Value
  unique : ∀ first ∈ entries, ∀ second ∈ entries, first.id ≠ second.id → ¬ Clash keys first second

namespace MultiIndex

variable {keys : List (Entry Value → Key)}

def find? (indices : MultiIndex keys) (id : Nat) : Option (Entry Value) := indices.entries.find? id

/-- The container without objects. -/
def empty : MultiIndex keys := ⟨.empty, nofun⟩

/-- `erase` of the object under an id -/
def erase (indices : MultiIndex keys) (id : Nat) : MultiIndex keys where
  entries := indices.entries.erase id
  unique := by
    intro first isFirst second isSecond
    exact indices.unique first (Table.mem_erase.mp isFirst).1 second (Table.mem_erase.mp isSecond).1

variable [DecidableEq Key]

/-- No other object shares a unique key with this one. -/
def Fits (indices : MultiIndex keys) (entry : Entry Value) : Prop :=
  ∀ other ∈ indices.entries.objects, other.id ≠ entry.id → ¬ Clash keys entry other

instance (indices : MultiIndex keys) (entry : Entry Value) : Decidable (indices.Fits entry) :=
  inferInstanceAs (Decidable (∀ other ∈ indices.entries.objects, _))

/-- `emplace`; nothing where the object shares a key with another one -/
def emplace? (indices : MultiIndex keys) (entry : Entry Value) : Option (MultiIndex keys) :=
  if fits : indices.Fits entry then
    match added : indices.entries.insert? entry with
    | none => none
    | some entries => some ⟨entries, by
        intro first isFirst second isSecond different
        rcases (Table.mem_of_insert? added).mp isFirst with old | rfl <;>
          rcases (Table.mem_of_insert? added).mp isSecond with older | rfl
        · exact indices.unique first old second older different
        · exact fun clash => fits first old different clash.symm
        · exact fits second older different.symm
        · exact absurd rfl different⟩
  else none

/-- `modify`, which puts an object in the place of the one under its id; nothing where it would share
a key with another one -/
def modify? (indices : MultiIndex keys) (entry : Entry Value) : Option (MultiIndex keys) :=
  if fits : indices.Fits entry then
    some ⟨indices.entries.replace entry, by
      intro first isFirst second isSecond different
      rcases Table.mem_replace.mp isFirst with ⟨old, _⟩ | ⟨rfl, _⟩ <;>
        rcases Table.mem_replace.mp isSecond with ⟨older, _⟩ | ⟨rfl, _⟩
      · exact indices.unique first old second older different
      · exact fun clash => fits first old different clash.symm
      · exact fits second older different.symm
      · exact absurd rfl different⟩
  else none

/-- `modify` of the object under an id, as the container does it: whether the new value could be
stored. Where it shares a key with another object, the object is erased. -/
def modify (indices : MultiIndex keys) (entry : Entry Value) : Bool × MultiIndex keys :=
  match indices.modify? entry with
  | some changed => (true, changed)
  | none => (false, indices.erase entry.id)

/-! ### What the operations do to a lookup -/

section Lookup

variable {indices next : MultiIndex keys} {entry : Entry Value} {id : Nat}

omit [DecidableEq Key] in
theorem id_of_find? (found : indices.find? id = some entry) : entry.id = id :=
  Table.key_of_find? found

omit [DecidableEq Key] in
theorem not_clash {other : Entry Value} {place : Nat} (found : indices.find? id = some entry)
    (another : indices.find? place = some other) (different : id ≠ place) :
    ¬ Clash keys entry other := by
  refine indices.unique entry (Table.mem_of_find? found) other (Table.mem_of_find? another) ?_
  rwa [id_of_find? found, id_of_find? another]

omit [DecidableEq Key] in
theorem fits_of_find? (free : ∀ place other, place ≠ entry.id → indices.find? place = some other →
    ¬ Clash keys entry other) : indices.Fits entry :=
  fun other member different => free other.id other different (Table.find?_of_mem member)

omit [DecidableEq Key] in
theorem find?_erase (id k : Nat) :
    (indices.erase id).find? k = if k = id then none else indices.find? k := by
  change (indices.entries.erase id).find? k = _
  split
  · next same =>
    subst same
    exact Table.find?_erase_self
  · next different => exact Table.find?_erase_of_ne different

theorem emplace?_eq_some (added : indices.emplace? entry = some next) (k : Nat) :
    indices.find? entry.id = none ∧
      next.find? k = if k = entry.id then some entry else indices.find? k := by
  unfold emplace? at added
  split at added
  · split at added
    · cases added
    · next entries inserted =>
      cases added
      refine ⟨(Table.insert?_eq_some inserted).1, ?_⟩
      change entries.find? k = _
      split
      · next same =>
        subst same
        exact Table.find?_insert?_self inserted
      · next different => exact Table.find?_insert?_of_ne inserted different
  · cases added

theorem modify?_eq_some (changed : indices.modify? entry = some next) {old : Entry Value}
    (found : indices.find? entry.id = some old) (k : Nat) :
    next.find? k = if k = entry.id then some entry else indices.find? k := by
  unfold modify? at changed
  split at changed
  · cases changed
    change (indices.entries.replace entry).find? k = _
    split
    · next same =>
      subst same
      exact Table.find?_replace_self found
    · next different => exact Table.find?_replace_of_ne different
  · cases changed

theorem exists_emplace? (absent : indices.find? entry.id = none) (fits : indices.Fits entry) :
    ∃ next, indices.emplace? entry = some next := by
  obtain ⟨entries, inserted⟩ := Table.insert?_of_find?_eq_none absent
  unfold emplace?
  rw [dif_pos fits]
  split
  · next nothing =>
    rw [inserted] at nothing
    cases nothing
  · exact ⟨_, rfl⟩

theorem exists_modify? (fits : indices.Fits entry) : ∃ next, indices.modify? entry = some next := by
  unfold modify?
  rw [dif_pos fits]
  exact ⟨_, rfl⟩

end Lookup

end MultiIndex

end Container

/-! ### The index and its sessions -/

/-- `undo_state` -/
structure UndoState (Value : Type) where
  oldValues : Entries Value
  removedValues : Entries Value
  newIds : Table Nat Nat id
  oldNextId : Nat
  revision : Int

/-- `generic_index`; the newest session is the head of the stack. -/
structure GenericIndex {Value Key : Type} (keys : List (Entry Value → Key)) where
  stack : List (UndoState Value)
  revision : Int
  nextId : Nat
  indices : MultiIndex keys

namespace UndoState

variable {Value : Type}

/-- `on_modify` for the newest session -/
def onModify (head : UndoState Value) (entry : Entry Value) : UndoState Value :=
  if (head.newIds.find? entry.id).isSome then head
  else { head with oldValues := head.oldValues.insertNew entry }

/-- `on_remove` for the newest session. An object that was modified before goes with its old value. -/
def onRemove (head : UndoState Value) (entry : Entry Value) : UndoState Value :=
  if (head.newIds.find? entry.id).isSome then { head with newIds := head.newIds.erase entry.id }
  else match head.oldValues.find? entry.id with
    | some old => { head with
        removedValues := head.removedValues.insertNew old
        oldValues := head.oldValues.erase entry.id }
    | none => { head with removedValues := head.removedValues.insertNew entry }

/-- `on_create` for the newest session -/
def onCreate (head : UndoState Value) (entry : Entry Value) : UndoState Value :=
  { head with newIds := head.newIds.insertNew entry.id }

end UndoState

namespace GenericIndex

variable {Value Key : Type} {keys : List (Entry Value → Key)}

/-- The index before anything is stored in it. -/
def empty : GenericIndex keys := ⟨[], 0, 0, .empty⟩

/-- `start_undo_session` -/
def startUndoSession (index : GenericIndex keys) : GenericIndex keys :=
  { index with
    stack := ⟨.empty, .empty, .empty, index.nextId, index.revision + 1⟩ :: index.stack
    revision := index.revision + 1 }

/-- The stack with a change recorded in the newest session, if there is one -/
def record (index : GenericIndex keys) (change : UndoState Value → UndoState Value) :
    List (UndoState Value) :=
  match index.stack with
  | [] => []
  | head :: rest => change head :: rest

/-- `remove` -/
def remove? (index : GenericIndex keys) (id : Nat) : Option (GenericIndex keys) := do
  let entry ← index.indices.find? id
  return { index with
    stack := index.record fun head => head.onRemove entry
    indices := index.indices.erase id }

/-- The loop of `undo` over the ids of new objects -/
def eraseNew (indices : MultiIndex keys) (id : Nat) : Option (MultiIndex keys) := do
  let _ ← indices.find? id
  return indices.erase id

/-- The merge of the newest session into the one before it. What the newest has modified, created
and removed is recorded there as if it had been done in that session. -/
def merge (previous newest : UndoState Value) : UndoState Value :=
  let updated := newest.oldValues.objects.foldl UndoState.onModify previous
  let created := newest.newIds.objects.foldl
    (fun state id => { state with newIds := state.newIds.insertNew id }) updated
  newest.removedValues.objects.foldl UndoState.onRemove created

/-- `squash`. A session without a parent is dropped, and the revision stays. -/
def squash (index : GenericIndex keys) : GenericIndex keys :=
  match index.stack with
  | [] => index
  | [_] => { index with stack := [] }
  | newest :: previous :: rest =>
    { index with stack := merge previous newest :: rest, revision := index.revision - 1 }

/-- `commit`, which drops the oldest sessions up to a revision -/
def commit (index : GenericIndex keys) (revision : Int) : GenericIndex keys :=
  { index with stack := index.stack.rdropWhile fun state => state.revision ≤ revision }

/-- `set_revision`; nothing while there is a session -/
def setRevision? (index : GenericIndex keys) (revision : Int) : Option (GenericIndex keys) :=
  if index.stack.isEmpty then some { index with revision := revision } else none

variable [DecidableEq Key]

/-- `emplace` of an object made for the next id; nothing where it violates a uniqueness constraint -/
def emplace? (index : GenericIndex keys) (make : Nat → Value) : Option (GenericIndex keys) := do
  let entry : Entry Value := ⟨index.nextId, make index.nextId⟩
  let indices ← index.indices.emplace? entry
  return { index with
    stack := index.record fun head => head.onCreate entry
    nextId := index.nextId + 1
    indices := indices }

/-- `modify`; nothing where it violates a uniqueness constraint -/
def modify? (index : GenericIndex keys) (id : Nat) (change : Value → Value) :
    Option (GenericIndex keys) := do
  let entry ← index.indices.find? id
  let indices ← index.indices.modify? ⟨id, change entry.value⟩
  return { index with
    stack := index.record fun head => head.onModify entry
    indices := indices }

/-- `modify`, with what an exception leaves behind. The flag says whether the call returned; the old
value has been recorded in any case. -/
def modify (index : GenericIndex keys) (id : Nat) (change : Value → Value) :
    Option (Bool × GenericIndex keys) := do
  let entry ← index.indices.find? id
  let (returned, indices) := index.indices.modify ⟨id, change entry.value⟩
  return (returned, { index with
    stack := index.record fun head => head.onModify entry
    indices := indices })

/-- The loop of `undo` over old values -/
def restoreOld (indices : MultiIndex keys) (old : Entry Value) : Option (MultiIndex keys) := do
  let _ ← indices.find? old.id
  indices.modify? old

/-- `undo`; nothing where a restored object violates a uniqueness constraint -/
def undo? (index : GenericIndex keys) : Option (GenericIndex keys) :=
  match index.stack with
  | [] => some index
  | head :: rest => do
    let restored ← head.oldValues.objects.foldlM restoreOld index.indices
    let kept ← head.newIds.objects.foldlM eraseNew restored
    let indices ← head.removedValues.objects.foldlM MultiIndex.emplace? kept
    return ⟨rest, index.revision - 1, head.oldNextId, indices⟩

end GenericIndex

/-! ### What is done inside a session -/

/-- An operation on the objects of an index. -/
inductive IndexStep (Value : Type) where
  | create (make : Nat → Value)
  | modify (id : Nat) (change : Value → Value)
  | remove (id : Nat)

namespace IndexStep

variable {Value Key : Type} {keys : List (Entry Value → Key)} [DecidableEq Key]

/-- One operation. A creation may fail, and then changes nothing; objects that are modified or
removed are there, and a modification is one that succeeds. -/
def apply (index : GenericIndex keys) : IndexStep Value → Option (GenericIndex keys)
  | .create make => some ((index.emplace? make).getD index)
  | .modify id change => index.modify? id change
  | .remove id => index.remove? id

/-- One operation after the other. -/
def run (steps : List (IndexStep Value)) (index : GenericIndex keys) :
    Option (GenericIndex keys) :=
  steps.foldlM apply index

end IndexStep

/-- What an index can become, from an empty one, by the operations on its objects and sessions. -/
inductive GenericIndex.Reachable {Value Key : Type} {keys : List (Entry Value → Key)}
    [DecidableEq Key] : GenericIndex keys → Prop
  | empty : Reachable .empty
  | apply {index next : GenericIndex keys} (step : IndexStep Value) :
    Reachable index → step.apply index = some next → Reachable next
  | start {index : GenericIndex keys} : Reachable index → Reachable index.startUndoSession
  | undo {index next : GenericIndex keys} :
    Reachable index → index.undo? = some next → Reachable next
  | squash {index : GenericIndex keys} : Reachable index → Reachable index.squash
  | commit {index : GenericIndex keys} (revision : Int) :
    Reachable index → Reachable (index.commit revision)
  | setRevision {index next : GenericIndex keys} (revision : Int) :
    Reachable index → index.setRevision? revision = some next → Reachable next

end Zattera
