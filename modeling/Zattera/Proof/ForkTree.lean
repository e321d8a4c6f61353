/-
This file says how the items of a fork database hang together. A pointer that can
be followed leads to the item of the previous block, so the items that a walk
visits have descending numbers, and the two branches that `fetch_branch_from`
finds lead down to blocks with the same previous block.
-/

import Mathlib.Data.List.Chain
import Zattera.Node.ForkDatabase

namespace Zattera

open Program

variable {item : ForkItem} {block : SignedBlock} {prev : Option Nat}

namespace ForkDatabase

variable {forkDb other : ForkDatabase}

/-! ### Pointers -/

theorem mem_items :
    item ∈ forkDb.items ↔
      item ∈ forkDb.index ∨ forkDb.head = some item ∨ item ∈ forkDb.held := by
  simp only [items, List.mem_append, Option.mem_toList, or_assoc, Table.mem_def]

/-- Serial numbers tell items apart, and a pointer to an item that exists is one to the item of the
previous block. -/
structure Linked (forkDb : ForkDatabase) : Prop where
  fresh : ∀ item ∈ forkDb.items, item.serial < forkDb.nextSerial
  backward : ∀ item ∈ forkDb.items, ∀ serial, item.prev = some serial →
    serial < forkDb.nextSerial
  unique : ∀ item ∈ forkDb.items, ∀ twin ∈ forkDb.items, item.serial = twin.serial → item = twin
  parent : ∀ item ∈ forkDb.items, ∀ prev ∈ forkDb.items, item.prev = some prev.serial →
    item.previousId = prev.id

theorem mem_of_lock {pointer : Option Nat} (locked : forkDb.lock pointer = some item) :
    item ∈ forkDb.items ∧ pointer = some item.serial := by
  obtain ⟨serial, rfl, found⟩ := Option.bind_eq_some_iff.mp locked
  have same : item.serial = serial := by simpa using List.find?_some found
  exact ⟨List.mem_of_find?_eq_some found, congrArg some same.symm⟩

theorem Linked.lock_serial (linked : forkDb.Linked) (member : item ∈ forkDb.items) :
    forkDb.lock (some item.serial) = some item := by
  cases found : forkDb.lock (some item.serial) with
  | none =>
    have missing := List.find?_eq_none.mp (found : forkDb.items.find? _ = none) item member
    simp at missing
  | some twin =>
    obtain ⟨isItem, same⟩ := mem_of_lock found
    rw [linked.unique item member twin isItem (Option.some.inj same)]

theorem Linked.of_subset (linked : forkDb.Linked) (part : other.items ⊆ forkDb.items)
    (later : forkDb.nextSerial ≤ other.nextSerial) : other.Linked where
  fresh item member := (linked.fresh item (part member)).trans_le later
  backward item member serial points :=
    (linked.backward item (part member) serial points).trans_le later
  unique item member twin isTwin := linked.unique item (part member) twin (part isTwin)
  parent item member prev isPrev := linked.parent item (part member) prev (part isPrev)

theorem num_of_previousId {prev : ForkItem} (same : item.previousId = prev.id) :
    item.num = prev.num + 1 :=
  congrArg (fun id : BlockId => id.num + 1) same

theorem Linked.num_of_lock (linked : forkDb.Linked) {prev : ForkItem} (member : item ∈ forkDb.items)
    (locked : forkDb.lock item.prev = some prev) :
    item.previousId = prev.id ∧ item.num = prev.num + 1 := by
  obtain ⟨isPrev, points⟩ := mem_of_lock locked
  have same := linked.parent item member prev isPrev points
  exact ⟨same, num_of_previousId same⟩

/-! ### Changes -/

theorem mem_index_add (member : item ∈ (forkDb.add prev block).index) :
    item ∈ forkDb.index ∨ item = ⟨forkDb.nextSerial, prev, block⟩ := by
  change item ∈ forkDb.index.insertNew _ at member
  unfold Table.insertNew at member
  cases inserted : forkDb.index.insert? ⟨forkDb.nextSerial, prev, block⟩ with
  | none =>
    rw [inserted] at member
    exact .inl member
  | some index =>
    rw [inserted] at member
    exact (Table.mem_of_insert? inserted).mp member

theorem mem_items_add (member : item ∈ (forkDb.add prev block).items) :
    item ∈ forkDb.items ∨ item = ⟨forkDb.nextSerial, prev, block⟩ := by
  rcases mem_items.mp member with indexed | isHead | held
  · exact (mem_index_add indexed).imp (fun indexed => mem_items.mpr (.inl indexed)) id
  · unfold add at isHead
    cases same : forkDb.head with
    | none =>
      simp only [same] at isHead
      exact .inr (Option.some.inj isHead).symm
    | some head =>
      simp only [same] at isHead
      split at isHead
      · exact .inr (Option.some.inj isHead).symm
      · exact .inl (mem_items.mpr (.inr (.inl (same.trans isHead))))
  · exact .inl (mem_items.mpr (.inr (.inr held)))

theorem Linked.add (linked : forkDb.Linked) (points : ∀ serial, prev = some serial →
      ∃ item ∈ forkDb.items, item.serial = serial ∧ block.previous = item.id) :
    (forkDb.add prev block).Linked := by
  have older : ∀ item ∈ forkDb.items, item.serial ≠ forkDb.nextSerial :=
    fun item member => (linked.fresh item member).ne
  refine ⟨?_, ?_, ?_, ?_⟩
  · intro item member
    rcases mem_items_add member with member | rfl
    · exact Nat.lt_succ_of_lt (linked.fresh item member)
    · exact Nat.lt_succ_self _
  · intro item member serial back
    rcases mem_items_add member with member | rfl
    · exact Nat.lt_succ_of_lt (linked.backward item member serial back)
    · obtain ⟨item, member, rfl, _⟩ := points serial back
      exact Nat.lt_succ_of_lt (linked.fresh item member)
  · intro item member twin isTwin same
    rcases mem_items_add member with member | rfl <;>
      rcases mem_items_add isTwin with isTwin | rfl
    · exact linked.unique item member twin isTwin same
    · exact absurd same (older item member)
    · exact absurd same.symm (older twin isTwin)
    · rfl
  · intro item member parent isParent back
    rcases mem_items_add member with member | rfl <;>
      rcases mem_items_add isParent with isParent | rfl
    · exact linked.parent item member parent isParent back
    · exact absurd (linked.backward item member _ back) (Nat.lt_irrefl _)
    · obtain ⟨item, member, same, previous⟩ := points _ back
      rw [← linked.unique item member parent isParent same]
      exact previous
    · obtain ⟨item, member, same, _⟩ := points _ back
      exact absurd same (older item member)

/-- What `push_block` does when it takes a block. -/
theorem pushBlock_eq_ok (taken : forkDb.pushBlock block = .ok other) :
    ∃ prev, other = forkDb.add prev block ∧
      (prev = none ∧ (forkDb.head = none ∨ block.previous = default) ∨
        ∃ item, forkDb.index.find? block.previous = some item ∧ prev = some item.serial) := by
  unfold pushBlock at taken
  split at taken
  · next isNone =>
    obtain rfl := Except.ok.inj taken
    exact ⟨none, rfl, .inl ⟨rfl, .inl isNone⟩⟩
  · obtain ⟨_, _, taken⟩ := except_bind_eq_ok.mp taken
    split at taken
    · split at taken
      · cases taken
      · next item found =>
        obtain rfl := Except.ok.inj taken
        exact ⟨some item.serial, rfl, .inr ⟨item, found, rfl⟩⟩
    · next first =>
      obtain rfl := Except.ok.inj taken
      exact ⟨none, rfl, .inl ⟨rfl, .inr (not_not.mp first)⟩⟩

theorem mem_index_add_self (fresh : forkDb.index.find? block.id = none) :
    (⟨forkDb.nextSerial, prev, block⟩ : ForkItem) ∈ (forkDb.add prev block).index := by
  obtain ⟨index, inserted⟩ : ∃ index,
      forkDb.index.insert? (⟨forkDb.nextSerial, prev, block⟩ : ForkItem) = some index :=
    Table.insert?_of_find?_eq_none fresh
  change _ ∈ (forkDb.index.insert? _).getD forkDb.index
  rw [inserted]
  exact (Table.mem_of_insert? inserted).mpr (.inr rfl)

theorem Linked.pushBlock (linked : forkDb.Linked) (taken : forkDb.pushBlock block = .ok other) :
    other.Linked := by
  obtain ⟨prev, rfl, ⟨absent, _⟩ | ⟨item, found, rfl⟩⟩ := pushBlock_eq_ok taken
  · refine linked.add fun serial points => ?_
    rw [absent] at points
    cases points
  · refine linked.add fun serial points => ?_
    exact ⟨item, mem_items.mpr (.inl (Table.mem_of_find? found)), Option.some.inj points,
      (Table.key_of_find? found).symm⟩

/-- One fork database is another one without some items of its index. -/
structure Pruned (forkDb other : ForkDatabase) : Prop where
  index : ∀ item ∈ other.index, item ∈ forkDb.index
  head : other.head = forkDb.head
  held : other.held = forkDb.held
  nextSerial : other.nextSerial = forkDb.nextSerial

theorem Pruned.refl (forkDb : ForkDatabase) : forkDb.Pruned forkDb :=
  ⟨fun _ member => member, rfl, rfl, rfl⟩

theorem Pruned.trans {last : ForkDatabase} (first : forkDb.Pruned other)
    (second : other.Pruned last) : forkDb.Pruned last :=
  ⟨fun item member => first.index item (second.index item member), second.head.trans first.head,
    second.held.trans first.held, second.nextSerial.trans first.nextSerial⟩

theorem Pruned.items_subset (pruned : forkDb.Pruned other) : other.items ⊆ forkDb.items := by
  intro item member
  rw [mem_items, pruned.head, pruned.held] at member
  exact mem_items.mpr (member.imp (pruned.index item) id)

theorem Linked.of_pruned (linked : forkDb.Linked) (pruned : forkDb.Pruned other) :
    other.Linked :=
  linked.of_subset pruned.items_subset pruned.nextSerial.ge

theorem pruned_setMaxSize (forkDb : ForkDatabase) (size : Nat) :
    forkDb.Pruned (forkDb.setMaxSize size) := by
  unfold setMaxSize
  split
  · exact ⟨fun _ member => member, rfl, rfl, rfl⟩
  · exact ⟨fun item member => (List.mem_filter.mp member).1, rfl, rfl, rfl⟩

theorem maxSize_setMaxSize (forkDb : ForkDatabase) (size : Nat) :
    (forkDb.setMaxSize size).maxSize = size := by
  unfold setMaxSize
  split <;> rfl

theorem mem_index_setMaxSize {size : Nat} (member : item ∈ forkDb.index)
    (high : ∀ head, forkDb.head = some head → head.num - size ≤ item.num) :
    item ∈ (forkDb.setMaxSize size).index := by
  unfold setMaxSize
  split
  · exact member
  · next head isHead => exact List.mem_filter.mpr ⟨member, decide_eq_true (high head isHead)⟩

theorem pruned_remove (forkDb : ForkDatabase) (id : BlockId) :
    forkDb.Pruned (forkDb.remove id) :=
  ⟨fun _ member => (Table.mem_erase.mp member).1, rfl, rfl, rfl⟩

theorem pruned_removeAll (forkDb : ForkDatabase) (removed : List ForkItem) :
    forkDb.Pruned (removed.foldl (fun forkDb item => forkDb.remove item.id) forkDb) := by
  induction removed generalizing forkDb with
  | nil => exact .refl forkDb
  | cons item rest inductionHypothesis =>
    exact (forkDb.pruned_remove item.id).trans (inductionHypothesis _)

theorem mem_index_removeAll {removed : List ForkItem} (member : item ∈ forkDb.index)
    (other : ∀ gone ∈ removed, item.id ≠ gone.id) :
    item ∈ (removed.foldl (fun forkDb item => forkDb.remove item.id) forkDb).index := by
  induction removed generalizing forkDb with
  | nil => exact member
  | cons gone rest inductionHypothesis =>
    obtain ⟨different, others⟩ := List.forall_mem_cons.mp other
    exact inductionHypothesis (Table.mem_erase.mpr ⟨member, different⟩) others

theorem id_ne_of_mem_removeAll {removed : List ForkItem}
    (member : item ∈ (removed.foldl (fun forkDb item => forkDb.remove item.id) forkDb).index) :
    ∀ gone ∈ removed, item.id ≠ gone.id := by
  induction removed generalizing forkDb with
  | nil => exact nofun
  | cons gone rest inductionHypothesis =>
    refine List.forall_mem_cons.mpr ⟨?_, inductionHypothesis member⟩
    have erased := ((forkDb.remove gone.id).pruned_removeAll rest).index item member
    exact (Table.mem_erase.mp erased).2

/-- The head can move to any item that is held elsewhere. -/
theorem Linked.setHead (linked : forkDb.Linked) (member : item ∈ forkDb.index ∨ item ∈ forkDb.held) :
    (forkDb.setHead (some item)).Linked := by
  refine linked.of_subset (fun other isItem => ?_) le_rfl
  rcases mem_items.mp isItem with indexed | isHead | held
  · exact mem_items.mpr (.inl indexed)
  · obtain rfl := Option.some.inj isHead
    exact mem_items.mpr (member.imp id .inr)
  · exact mem_items.mpr (.inr (.inr held))

theorem popBlock_of_points (linked : forkDb.Linked) {prev : ForkItem}
    (isHead : forkDb.head = some item) (points : item.prev = some prev.serial)
    (member : prev ∈ forkDb.index ∨ prev ∈ forkDb.held) :
    forkDb.popBlock = .ok (forkDb.setHead (some prev)) := by
  have locked : forkDb.lock item.prev = some prev := by
    rw [points]
    exact linked.lock_serial (mem_items.mpr (member.imp id .inr))
  unfold popBlock
  simp only [isHead, locked]
  rfl

/-! ### Branches -/

/-- Items that each point to the next. -/
def Trail (forkDb : ForkDatabase) : List ForkItem → Prop :=
  List.IsChain fun item prev => forkDb.lock item.prev = some prev

/-- Items whose pointers are those of the next, whether they can be followed or not. -/
def Pointing : List ForkItem → Prop :=
  List.IsChain fun item prev => item.prev = some prev.serial

theorem Trail.pointing {items : List ForkItem} (trail : forkDb.Trail items) : Pointing items :=
  List.IsChain.imp (fun _ _ locked => (mem_of_lock locked).2) trail

/-- The items of a trail exist, and their numbers descend one by one. -/
theorem Trail.num_add {rest : List ForkItem} (trail : forkDb.Trail (item :: rest))
    (linked : forkDb.Linked) (member : item ∈ forkDb.items) {place : Nat} {other : ForkItem}
    (found : (item :: rest)[place]? = some other) :
    other ∈ forkDb.items ∧ other.num + place = item.num := by
  induction rest generalizing item place with
  | nil =>
    cases place with
    | zero =>
      obtain rfl := Option.some.inj found
      exact ⟨member, rfl⟩
    | succ place => cases found
  | cons prev rest inductionHypothesis =>
    obtain ⟨locked, trail⟩ := List.isChain_cons_cons.mp trail
    cases place with
    | zero =>
      obtain rfl := Option.some.inj found
      exact ⟨member, rfl⟩
    | succ place =>
      rw [List.getElem?_cons_succ] at found
      obtain ⟨isItem, number⟩ := inductionHypothesis trail (mem_of_lock locked).1 found
      have above := (linked.num_of_lock member locked).2
      exact ⟨isItem, by omega⟩

theorem itemsAbove_eq_ok {number bound : Nat} {last : ForkItem} {above : List ForkItem}
    (walked : forkDb.itemsAbove number bound item = .ok (above, last)) :
    forkDb.Trail (above ++ [last]) ∧ (above ++ [last]).head? = some item := by
  induction bound generalizing item above with
  | zero => cases walked
  | succ bound inductionHypothesis =>
    unfold itemsAbove at walked
    split at walked
    · split at walked
      · cases walked
      · next prev locked =>
        obtain ⟨⟨lower, _⟩, below, walked⟩ := except_bind_eq_ok.mp walked
        obtain ⟨rfl, rfl⟩ := Prod.mk.inj (except_pure_eq_ok.mp walked)
        obtain ⟨trail, first⟩ := inductionHypothesis below
        refine ⟨List.IsChain.cons trail fun next isNext => ?_, rfl⟩
        obtain rfl := Option.some.inj (first.symm.trans isNext)
        exact locked
    · obtain ⟨rfl, rfl⟩ := Prod.mk.inj (except_pure_eq_ok.mp walked)
      exact ⟨List.isChain_singleton _, rfl⟩

theorem itemsApart_eq_ok {bound : Nat} {first second : ForkItem}
    {firstApart secondApart : List ForkItem}
    (walked : forkDb.itemsApart bound first second = .ok (firstApart, secondApart)) :
    forkDb.Trail firstApart ∧ firstApart.head? = some first ∧ forkDb.Trail secondApart ∧
      secondApart.head? = some second ∧ firstApart.length = secondApart.length ∧
      firstApart.getLast?.map ForkItem.previousId =
        secondApart.getLast?.map ForkItem.previousId := by
  induction bound generalizing first second firstApart secondApart with
  | zero => cases walked
  | succ bound inductionHypothesis =>
    unfold itemsApart at walked
    split at walked
    · split at walked
      · next firstPrev secondPrev firstLocked secondLocked =>
        obtain ⟨⟨firstRest, secondRest⟩, below, walked⟩ := except_bind_eq_ok.mp walked
        obtain ⟨rfl, rfl⟩ := Prod.mk.inj (except_pure_eq_ok.mp walked)
        obtain ⟨firstTrail, firstHead, secondTrail, secondHead, length, last⟩ :=
          inductionHypothesis below
        refine ⟨firstTrail.cons fun next isNext => ?_, rfl, secondTrail.cons fun next isNext => ?_,
          rfl, congrArg Nat.succ length, ?_⟩
        · obtain rfl := Option.some.inj (firstHead.symm.trans isNext)
          exact firstLocked
        · obtain rfl := Option.some.inj (secondHead.symm.trans isNext)
          exact secondLocked
        · obtain ⟨_, rfl⟩ := List.head?_eq_some_iff.mp firstHead
          obtain ⟨_, rfl⟩ := List.head?_eq_some_iff.mp secondHead
          rw [List.getLast?_cons_cons, List.getLast?_cons_cons]
          exact last
      · cases walked
    · next same =>
      obtain ⟨rfl, rfl⟩ := Prod.mk.inj (except_pure_eq_ok.mp walked)
      exact ⟨List.isChain_singleton _, rfl, List.isChain_singleton _, rfl, rfl,
        congrArg some (not_not.mp same)⟩

/-- A trail that ends where another one begins. -/
theorem Trail.append {above apart : List ForkItem} {last : ForkItem}
    (trail : forkDb.Trail (above ++ [last])) (first : (above ++ [last]).head? = some item)
    (onward : forkDb.Trail apart) (starts : apart.head? = some last) :
    forkDb.Trail (above ++ apart) ∧ (above ++ apart).head? = some item := by
  obtain ⟨rest, rfl⟩ := List.head?_eq_some_iff.mp starts
  constructor
  · exact List.isChain_split.mpr ⟨trail, onward⟩
  · cases above with
    | nil => exact first
    | cons head tail => exact first

/-- The two branches of `fetch_branch_from` go down from the items with the given ids to two items
with the same previous block. -/
theorem fetchBranchFrom_eq_ok {first second : BlockId} {newBranch oldBranch : List ForkItem}
    (fetched : forkDb.fetchBranchFrom first second = .ok (newBranch, oldBranch)) :
    (∃ item, forkDb.index.find? first = some item ∧ newBranch.head? = some item) ∧
      (∃ item, forkDb.index.find? second = some item ∧ oldBranch.head? = some item) ∧
      forkDb.Trail newBranch ∧ forkDb.Trail oldBranch ∧
      newBranch.getLast?.map ForkItem.previousId = oldBranch.getLast?.map ForkItem.previousId := by
  unfold fetchBranchFrom at fetched
  split at fetched
  · next firstItem secondItem firstFound secondFound =>
    obtain ⟨⟨firstAbove, firstLast⟩, above, fetched⟩ := except_bind_eq_ok.mp fetched
    obtain ⟨⟨secondAbove, secondLast⟩, beside, fetched⟩ := except_bind_eq_ok.mp fetched
    obtain ⟨⟨firstApart, secondApart⟩, apart, fetched⟩ := except_bind_eq_ok.mp fetched
    obtain ⟨rfl, rfl⟩ := Prod.mk.inj (except_pure_eq_ok.mp fetched)
    obtain ⟨firstTrail, firstHead⟩ := itemsAbove_eq_ok above
    obtain ⟨secondTrail, secondHead⟩ := itemsAbove_eq_ok beside
    obtain ⟨firstDown, firstStart, secondDown, secondStart, _, last⟩ := itemsApart_eq_ok apart
    obtain ⟨firstWhole, firstTop⟩ := firstTrail.append firstHead firstDown firstStart
    obtain ⟨secondWhole, secondTop⟩ := secondTrail.append secondHead secondDown secondStart
    refine ⟨⟨firstItem, firstFound, firstTop⟩, ⟨secondItem, secondFound, secondTop⟩, firstWhole,
      secondWhole, ?_⟩
    obtain ⟨_, rfl⟩ := List.head?_eq_some_iff.mp firstStart
    obtain ⟨_, rfl⟩ := List.head?_eq_some_iff.mp secondStart
    rw [List.getLast?_append_cons, List.getLast?_append_cons]
    exact last
  · cases fetched

end ForkDatabase

end Zattera
