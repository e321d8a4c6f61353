/-
This file follows a switch to another fork. The node pops the blocks of its own
branch down to the fork point and applies those of the new branch. When one of
them fails, it pops the ones before it and applies its own branch again, which
leads back to the state it had.

This takes a fork point that is still in the undo history and in the fork
database, and a new branch whose blocks make nothing above the fork point
irreversible while they are applied.
-/

import Zattera.Proof.Coherence

namespace Zattera

open Program

variable {item newHead : ForkItem} {chain : List SignedBlock} {remaining : Nat}
  {done rest : List ForkItem} {forkDb : ForkDatabase}

/-- Nothing above a number becomes irreversible while some blocks, the oldest first, are applied. -/
def Shallow (skip : SkipFlags) (number : Nat) : List SignedBlock → ChainState → Prop
  | [], _ => True
  | block :: rest, state => state.irreversibleWith block ≤ number ∧
      ∀ after, applyBlock skip false block state = .ok () after → Shallow skip number rest after

instance Shallow.decidable (skip : SkipFlags) (number : Nat) :
    ∀ blocks state, Decidable (Shallow skip number blocks state)
  | [], _ => .isTrue trivial
  | block :: rest, state =>
    have := Shallow.decidable skip number rest
    match applied : applyBlock skip false block state with
    | .ok () after => decidable_of_iff
        (state.irreversibleWith block ≤ number ∧ Shallow skip number rest after)
        (and_congr_right fun _ => ⟨fun shallow _ same => by
          obtain ⟨_, rfl⟩ := EStateM.Result.ok.inj (applied.symm.trans same)
          exact shallow, fun shallow => shallow after applied⟩)
    | .error _ _ => decidable_of_iff (state.irreversibleWith block ≤ number)
        ⟨fun low => ⟨low, fun _ same => nomatch applied.symm.trans same⟩, And.left⟩

/-- How two branches of a fork database hang together above a fork point: their items, the newest
first, and the item of the fork point, whose number is that of the blocks below. -/
structure Forked (index : Table BlockId ForkItem ForkItem.id) (number : Nat) (fork : ForkItem)
    (newItems oldItems : List ForkItem) : Prop where
  indexed : ∀ item ∈ newItems, item ∈ index
  numbers : ∀ place item, newItems[place]? = some item →
    item.num + place = number + newItems.length
  oldTop : ∃ top rest, oldItems = top :: rest ∧ top.num = number + oldItems.length
  pointing : ForkDatabase.Pointing (oldItems ++ [fork])
  forkIndexed : fork ∈ index
  forkNumber : fork.num = number
  longer : newItems.length = oldItems.length + 1

/-- A node that has applied the lowest blocks of the new branch. -/
structure Switching (skip : SkipFlags) (start : ChainState)
    (index : Table BlockId ForkItem ForkItem.id) (base : List SignedBlock)
    (newItems oldItems done : List ForkItem) (floor : Nat) (node : NodeState) : Prop where
  coherent : Coherent skip start (done.map ForkItem.data ++ base) floor node
  below : floor ≤ base.length
  enough : done.length ≤ node.undoStack.length
  head : ∃ item ∈ newItems, node.forkDb.head = some item ∧ item.num = base.length + 1
  held : node.forkDb.held = newItems ++ oldItems
  indexed : ∀ item ∈ node.forkDb.index, item ∈ index
  kept : ∀ item ∈ index, base.length ≤ item.num → item ∈ node.forkDb.index

section

variable {skip : SkipFlags} {start : ChainState} {index : Table BlockId ForkItem ForkItem.id}
  {base : List SignedBlock} {fork : ForkItem} {newItems oldItems : List ForkItem} {floor : Nat}
  {node : NodeState}

/-! ### One block of the new branch -/

/-- Making something irreversible below the fork point prunes nothing above it. -/
theorem Switching.kept_setMaxSize {size : Nat}
    (switching : Switching skip start index base newItems oldItems done floor node)
    (large : 0 < size) :
    ∀ item ∈ index, base.length ≤ item.num → item ∈ (node.forkDb.setMaxSize size).index := by
  intro item member high
  obtain ⟨head, _, isHead, number⟩ := switching.head
  refine ForkDatabase.mem_index_setMaxSize (switching.kept item member high) fun top isTop => ?_
  obtain rfl := Option.some.inj (isHead.symm.trans isTop)
  omega

theorem Switching.applied {after : NodeState}
    (switching : Switching skip start index base newItems oldItems done floor node)
    (blank : start.Blank) (low : node.state.irreversibleWith item.data ≤ base.length)
    (run : Node.inSession (Node.applyBlock skip item.data) node = .ok () after) :
    applyBlock skip false item.data node.state = .ok () after.state ∧
      ∃ higher ≥ floor,
        Switching skip start index base newItems oldItems (item :: done) higher after := by
  obtain ⟨state, log, applied, logged, rfl⟩ := Node.inSession_applyBlock_eq_ok.mp run
  have coherent := switching.coherent
  have below := switching.below
  have length : (done.map ForkItem.data ++ base).length = done.length + base.length := by
    rw [List.length_append, List.length_map]
  have pruned := ForkDatabase.pruned_setMaxSize node.forkDb
    (item.data.blockNum - node.state.irreversibleWith item.data + 1)
  refine ⟨applied, _, le_max_left _ _, ?_, max_le below low, ?_, ?_, ?_, ?_, ?_⟩
  · exact coherent.extended blank applied logged (by omega) (by omega)
  · exact coherent.length_extended blank switching.enough (by omega)
  · exact pruned.head.symm ▸ switching.head
  · exact pruned.held.trans switching.held
  · exact fun other member => switching.indexed other (pruned.index other member)
  · exact switching.kept_setMaxSize (Nat.succ_pos _)

theorem Switching.failed {error : ChainError} {after : NodeState}
    (switching : Switching skip start index base newItems oldItems done floor node)
    (blank : start.Blank) (low : node.state.irreversibleWith item.data ≤ base.length)
    (stopped : Node.inSession (Node.applyBlock skip item.data) node = .error error after) :
    Switching skip start index base newItems oldItems done floor after := by
  have length : (done.map ForkItem.data ++ base).length = done.length + base.length := by
    rw [List.length_append, List.length_map]
  rcases switching.coherent.failed blank (fun _ => by omega) stopped with
    rfl | ⟨_, coherent, _, sessions, _, changed⟩
  · exact switching
  have enough := sessions _ switching.enough (by omega)
  rcases changed with same | pruned
  · exact ⟨coherent, switching.below, enough, same ▸ switching.head, same ▸ switching.held,
      same ▸ switching.indexed, same ▸ switching.kept⟩
  · have part := ForkDatabase.pruned_setMaxSize node.forkDb
      (item.data.blockNum - node.state.irreversibleWith item.data + 1)
    rw [← pruned] at part
    refine ⟨coherent, switching.below, enough, ?_, part.held.trans switching.held, ?_, ?_⟩
    · exact part.head.symm ▸ switching.head
    · exact fun other member => switching.indexed other (part.index other member)
    · rw [pruned]
      exact switching.kept_setMaxSize (Nat.succ_pos _)

/-! ### Going back -/

/-- A node that has gone back to its own branch has its old state; of the new branch, at least the
newest item is forgotten. -/
structure Restored (skip : SkipFlags) (start : ChainState)
    (index : Table BlockId ForkItem ForkItem.id) (base : List SignedBlock) (fork : ForkItem)
    (newItems oldItems : List ForkItem) (final : ChainState) (floor : Nat) (after : NodeState) :
    Prop where
  coherent : Coherent skip start (oldItems.map ForkItem.data ++ base) floor after
  state : after.state = final
  head : ∃ item ∈ oldItems ++ [fork], after.forkDb.head = some item
  indexed : ∀ item ∈ after.forkDb.index, item ∈ index ∧ newItems.head?.map ForkItem.id ≠ some item.id

theorem Forked.lt_num (forked : Forked index base.length fork newItems oldItems)
    (member : item ∈ newItems) : base.length < item.num := by
  obtain ⟨place, inside, rfl⟩ := List.getElem_of_mem member
  have number := forked.numbers place _ (List.getElem?_eq_getElem inside)
  omega

theorem Forked.id_ne (forked : Forked index base.length fork newItems oldItems) {gone : ForkItem}
    (member : item ∈ newItems.drop remaining) (isGone : gone ∈ newItems.take remaining) :
    item.id ≠ gone.id := by
  obtain ⟨place, inside, rfl⟩ := List.getElem_of_mem member
  obtain ⟨higher, within, rfl⟩ := List.getElem_of_mem isGone
  rw [List.length_drop] at inside
  rw [List.length_take] at within
  rw [List.getElem_drop, List.getElem_take]
  intro same
  have number := forked.numbers _ _ (List.getElem?_eq_getElem (by omega : remaining + place < _))
  have above := forked.numbers _ _ (List.getElem?_eq_getElem (by omega : higher < _))
  have equal : newItems[remaining + place].num = newItems[higher].num := congrArg BlockId.num same
  omega

/-- The node that starts going back: the rest of the new branch is forgotten, and the head of the
fork database is that of the old branch. -/
theorem Switching.forgotten {top : ForkItem}
    (switching : Switching skip start index base newItems oldItems (newItems.drop remaining) floor
      node) (forked : Forked index base.length fork newItems oldItems)
    (isTop : oldItems = top :: rest) :
    let forgotten := (newItems.take remaining).reverse.foldl
      (fun forkDb item => forkDb.remove item.id) node.forkDb
    (forgotten.setHead (some top)).Linked ∧ fork ∈ forgotten.index ∧
      (∀ item ∈ newItems.drop remaining, item ∈ forgotten.index) ∧ top ∈ forgotten.held := by
  intro forgotten
  have pruned : node.forkDb.Pruned forgotten := ForkDatabase.pruned_removeAll _ _
  have isHeld : top ∈ forgotten.held := by
    rw [pruned.held, switching.held, isTop]
    exact List.mem_append_right _ List.mem_cons_self
  have linked := (switching.coherent.linked.of_pruned pruned).setHead (.inr isHeld)
  refine ⟨linked, ?_, ?_, isHeld⟩
  · refine ForkDatabase.mem_index_removeAll
      (switching.kept fork forked.forkIndexed forked.forkNumber.ge) fun gone isGone same => ?_
    have above := forked.lt_num (List.mem_of_mem_take (List.mem_reverse.mp isGone))
    have equal : fork.num = gone.num := congrArg BlockId.num same
    exact absurd (equal.symm.trans forked.forkNumber) above.ne'
  · intro item member
    have isNew := List.mem_of_mem_drop member
    exact ForkDatabase.mem_index_removeAll
      (switching.kept item (forked.indexed item isNew) (forked.lt_num isNew).le)
      fun gone isGone => forked.id_ne member (List.mem_reverse.mp isGone)

theorem Switching.restored {origin final : ChainState}
    (switching : Switching skip start index base newItems oldItems (newItems.drop remaining) floor
      node) (blank : start.Blank) (forked : Forked index base.length fork newItems oldItems)
    (failing : 0 < remaining) (origins : Replayed skip start base origin)
    (replayed : Replayed skip origin (oldItems.map ForkItem.data) final)
    (low : final.dgp.lastIrreversibleBlockNum ≤ floor) :
    ∃ after, Node.restoreBranch skip (newItems.take remaining).reverse oldItems (headId base) node =
        .ok () after ∧
      Restored skip start index base fork newItems oldItems final floor after ∧
      after.blockLog = node.blockLog ∧
      ∀ item ∈ node.forkDb.index, (∀ gone ∈ newItems.take remaining, item.id ≠ gone.id) →
        (∀ top ∈ oldItems ++ [fork],
          Spared skip top.num item.num origin (oldItems.map ForkItem.data)) →
        item ∈ after.forkDb.index := by
  obtain ⟨top, rest, isTop, topNum⟩ := forked.oldTop
  obtain ⟨linked, forkKept, doneKept, isHeld⟩ := switching.forgotten forked isTop
  have pruned := node.forkDb.pruned_removeAll (newItems.take remaining).reverse
  have removed : ∀ item ∈ ((newItems.take remaining).reverse.foldl
      (fun forkDb item => forkDb.remove item.id) node.forkDb).index,
      ∀ gone ∈ (newItems.take remaining).reverse, item.id ≠ gone.id :=
    fun item => ForkDatabase.id_ne_of_mem_removeAll
  have stays : ∀ item ∈ node.forkDb.index, (∀ gone ∈ newItems.take remaining, item.id ≠ gone.id) →
      item ∈ ((newItems.take remaining).reverse.foldl
        (fun forkDb item => forkDb.remove item.id) node.forkDb).index :=
    fun item member other => ForkDatabase.mem_index_removeAll member fun gone isGone =>
      other gone (List.mem_reverse.mp isGone)
  generalize database : (newItems.take remaining).reverse.foldl
    (fun forkDb item => forkDb.remove item.id) node.forkDb = forgotten at *
  have back : Coherent skip start ((newItems.drop remaining).map ForkItem.data ++ base) floor
      (node.withForkDb fun _ => forgotten.setHead (some top)) :=
    switching.coherent.withForkDb linked
  -- the part of the old branch that the head of the fork database moves down
  have long := forked.longer
  have oldLength : oldItems.length = rest.length + 1 := congrArg List.length isTop
  have doneLength : ((newItems.drop remaining).map ForkItem.data).length =
      newItems.length - remaining := by rw [List.length_map, List.length_drop]
  have pointing : ForkDatabase.Pointing
      (top :: (rest ++ [fork]).take ((newItems.drop remaining).map ForkItem.data).length) := by
    have whole := forked.pointing
    rw [isTop, List.cons_append] at whole
    exact whole.take (_ + 1)
  have held : ∀ prev ∈ (rest ++ [fork]).take ((newItems.drop remaining).map ForkItem.data).length,
      prev ∈ forgotten.index ∨ prev ∈ forgotten.held := by
    intro prev member
    rcases List.mem_append.mp (List.mem_of_mem_take member) with isRest | isFork
    · refine .inr ?_
      rw [pruned.held, switching.held, isTop]
      exact List.mem_append_right _ (List.mem_cons_of_mem _ isRest)
    · rw [List.mem_singleton] at isFork
      exact .inl (isFork ▸ forkKept)
  have known : ∀ block ∈ (newItems.drop remaining).map ForkItem.data,
      (forgotten.index.find? block.id).isSome := by
    intro block member
    obtain ⟨item, isDone, rfl⟩ := List.mem_map.mp member
    exact Option.isSome_iff_exists.mpr ⟨item, Table.find?_of_mem (doneKept item isDone)⟩
  obtain ⟨state, popped, based⟩ := back.popBlocksTo blank
    (by rw [List.length_map]; exact switching.enough) rfl pointing held
    (by rw [List.length_take, List.length_append, List.length_singleton]; omega) known
    (by omega : _ < top.num + 2)
  have origin_eq : state = origin := based.history.replayed.unique origins
  obtain ⟨last, isLast⟩ := Option.ne_none_iff_exists'.mp
    (mt List.getLast?_eq_none_iff.mp (List.cons_ne_nil top
      ((rest ++ [fork]).take ((newItems.drop remaining).map ForkItem.data).length)))
  have lastOld : last ∈ oldItems ++ [fork] := by
    have member := List.mem_of_mem_getLast? isLast
    rw [isTop, List.cons_append]
    exact (List.take_sublist (_ + 1) (top :: (rest ++ [fork]))).subset member
  obtain ⟨after, looped, coherent, isFinal, log, kept, spared, _⟩ :=
    based.reapplied blank switching.below (origin_eq ▸ replayed) low
  refine ⟨after, ?_, ⟨coherent, isFinal, ⟨last, lastOld, kept.head.trans isLast⟩, ?_⟩, log,
    fun item member other room => ?_⟩
  · unfold Node.restoreBranch
    rw [modify_bind, modify_bind]
    have starting : (node.withForkDb fun forkDb => (newItems.take remaining).reverse.foldl
        (fun forkDb item => forkDb.remove item.id) forkDb).withForkDb
          (fun forkDb => forkDb.setHead oldItems.head?) =
        node.withForkDb fun _ => forgotten.setHead (some top) := by
      rw [← database, isTop]
      rfl
    rw [starting, Node.popTo, bind_assoc, get_bind]
    exact (bind_of_ok popped).trans looped
  · intro item member
    have inside := kept.index item member
    refine ⟨switching.indexed item (pruned.index item inside), fun same => ?_⟩
    obtain ⟨tip, isTip, sameId⟩ := Option.map_eq_some_iff.mp same
    refine removed item inside tip (List.mem_reverse.mpr ?_) sameId.symm
    obtain ⟨others, rfl⟩ := List.head?_eq_some_iff.mp isTip
    obtain ⟨more, rfl⟩ : ∃ more, remaining = more + 1 := ⟨remaining - 1, by omega⟩
    exact List.mem_cons_self
  · refine spared item (stays item member other) fun head isHead => ?_
    obtain rfl := Option.some.inj (isLast.symm.trans isHead)
    exact origin_eq ▸ room last lastOld

/-! ### The branches -/

/-- The block that a branch of items stands on. -/
def forkPoint (items : List ForkItem) : BlockId :=
  (items.getLast?.map ForkItem.previousId).getD default

/-- The old branch is the upper part of the node's chain. -/
theorem exists_base {state : ChainState} (linked : forkDb.Linked)
    (trail : forkDb.Trail (item :: rest)) (member : item ∈ forkDb.items) (blank : start.Blank)
    (replayed : Replayed skip start chain state)
    (same : ∀ item ∈ forkDb.items, ∀ block ∈ chain, item.id = block.id → item.data = block)
    (isHead : item.id = headId chain) :
    ∃ base, chain = (item :: rest).map ForkItem.data ++ base ∧
      forkPoint (item :: rest) = headId base := by
  induction rest generalizing item chain state with
  | nil =>
    cases chain with
    | nil => cases congrArg BlockId.num isHead
    | cons block base =>
      have data := same item member block List.mem_cons_self isHead
      refine ⟨base, by rw [← data]; rfl, ?_⟩
      change item.data.previous = headId base
      rw [data]
      exact (replayed.previous blank).1
  | cons prev rest inductionHypothesis =>
    obtain ⟨locked, trail⟩ := List.isChain_cons_cons.mp trail
    cases chain with
    | nil => cases congrArg BlockId.num isHead
    | cons block chain =>
      have data := same item member block List.mem_cons_self isHead
      have previous := (linked.num_of_lock member locked).1
      have isPrev : prev.id = headId chain := by
        rw [← previous, ← (replayed.previous blank).1, ← data]
        rfl
      cases replayed with
      | block earlier _ _ =>
      obtain ⟨base, rfl, point⟩ := inductionHypothesis trail
        (ForkDatabase.mem_of_lock locked).1 earlier
        (fun item member block isBlock => same item member block (List.mem_cons_of_mem _ isBlock))
        isPrev
      exact ⟨base, by rw [← data]; rfl, point⟩

/-- The item at the bottom of a branch. -/
theorem num_of_forkPoint (linked : forkDb.Linked) (trail : forkDb.Trail (item :: rest))
    (member : item ∈ forkDb.items) {id : BlockId} (point : forkPoint (item :: rest) = id) :
    item.num = id.num + (item :: rest).length := by
  have found : (item :: rest)[rest.length]? = some ((item :: rest).getLast (List.cons_ne_nil _ _)) := by
    rw [List.getLast_eq_getElem, List.getElem?_eq_getElem (Nat.lt_succ_self _)]
    rfl
  obtain ⟨_, number⟩ := trail.num_add linked member found
  have last : (item :: rest).getLast? = some ((item :: rest).getLast (List.cons_ne_nil _ _)) :=
    List.getLast?_eq_some_getLast _
  rw [forkPoint, last] at point
  have bottom : ((item :: rest).getLast (List.cons_ne_nil _ _)).num = id.num + 1 :=
    congrArg (fun id : BlockId => id.num + 1) point
  rw [List.length_cons]
  omega

/-- The branches that `fetch_branch_from` finds for a new head that is one block higher than the
chain, when the fork point is in the index. -/
theorem exists_forked {state : ChainState} (linked : forkDb.Linked) (released : forkDb.held = [])
    (isHead : forkDb.head = some newHead) (indexed : newHead ∈ forkDb.index)
    (number : newHead.num = chain.length + 1) (blank : start.Blank)
    (replayed : Replayed skip start chain state)
    (same : ∀ item ∈ forkDb.items, ∀ block ∈ chain, item.id = block.id → item.data = block)
    (fetched : forkDb.fetchBranchFrom newHead.id (headId chain) = .ok (newItems, oldItems))
    (rooted : ∃ fork ∈ forkDb.index, oldItems.getLast?.bind ForkItem.prev = some fork.serial) :
    ∃ base fork, chain = oldItems.map ForkItem.data ++ base ∧ forkPoint oldItems = headId base ∧
      Forked forkDb.index base.length fork newItems oldItems ∧ newItems.head? = some newHead ∧
      ForkDatabase.Pointing newItems ∧ ∀ item ∈ oldItems, item ∈ forkDb.index := by
  obtain ⟨⟨newTop, newFound, newStarts⟩, ⟨oldTop, oldFound, oldStarts⟩, newTrail, oldTrail, point⟩ :=
    ForkDatabase.fetchBranchFrom_eq_ok fetched
  obtain rfl : newHead = newTop := by
    rw [Table.find?_of_mem indexed] at newFound
    exact Option.some.inj newFound
  have inIndex : ∀ item ∈ forkDb.items, item ∈ forkDb.index := by
    intro item member
    rcases ForkDatabase.mem_items.mp member with isIndexed | isTop | isHeld
    · exact isIndexed
    · obtain rfl := Option.some.inj (isHead.symm.trans isTop)
      exact indexed
    · rw [released] at isHeld
      cases isHeld
  obtain ⟨newRest, rfl⟩ := List.head?_eq_some_iff.mp newStarts
  obtain ⟨oldRest, rfl⟩ := List.head?_eq_some_iff.mp oldStarts
  have newMember := ForkDatabase.mem_items.mpr (.inl (Table.mem_of_find? newFound))
  have oldMember := ForkDatabase.mem_items.mpr (.inl (Table.mem_of_find? oldFound))
  obtain ⟨base, whole, stands⟩ := exists_base linked oldTrail oldMember blank replayed same
    (Table.key_of_find? oldFound)
  obtain ⟨_, lower⟩ : ∃ before, Replayed skip start base before := by
    rw [whole] at replayed
    exact replayed.drop
  have baseNum := (lower.head blank).2.2
  have oldNum := num_of_forkPoint linked oldTrail oldMember stands
  have newPoint : forkPoint (newHead :: newRest) = headId base := by
    rw [← stands, forkPoint, forkPoint, point]
  have newNum := num_of_forkPoint linked newTrail newMember newPoint
  have chainLength : chain.length = (oldTop :: oldRest).length + base.length := by
    rw [whole, List.length_append, List.length_map]
  obtain ⟨fork, forkIndexed, points⟩ := rooted
  obtain ⟨last, isLast, points⟩ := Option.bind_eq_some_iff.mp points
  have lastPlace := List.getElem_of_mem (List.mem_of_mem_getLast? isLast)
  obtain ⟨place, inside, rfl⟩ := lastPlace
  have lastMember := (oldTrail.num_add linked oldMember (List.getElem?_eq_getElem inside)).1
  have forkId : fork.id = headId base := by
    rw [← linked.parent _ lastMember fork (ForkDatabase.mem_items.mpr (.inl forkIndexed)) points,
      ← stands, forkPoint, isLast]
    rfl
  refine ⟨base, fork, whole, stands, ⟨?_, ?_, ⟨oldTop, oldRest, rfl, ?_⟩, ?_, forkIndexed, ?_, ?_⟩,
    rfl, newTrail.pointing, ?_⟩
  · intro item member
    obtain ⟨place, inside, rfl⟩ := List.getElem_of_mem member
    exact inIndex _ (newTrail.num_add linked newMember (List.getElem?_eq_getElem inside)).1
  · intro place item found
    have number := (newTrail.num_add linked newMember found).2
    omega
  · rw [oldNum, baseNum]
  · refine List.IsChain.append oldTrail.pointing (List.isChain_singleton _) ?_
    intro item isItem other isOther
    obtain rfl := Option.some.inj (isLast.symm.trans isItem)
    obtain rfl := Option.some.inj isOther
    exact points
  · exact (congrArg BlockId.num forkId).trans baseNum
  · omega
  · intro item member
    obtain ⟨place, inside, rfl⟩ := List.getElem_of_mem member
    exact inIndex _ (oldTrail.num_add linked oldMember (List.getElem?_eq_getElem inside)).1

/-! ### The whole switch -/

/-- Applying what remains of the new branch, or going back. -/
theorem Switching.applyBranch {origin final : ChainState}
    (switching : Switching skip start index base newItems oldItems (newItems.drop remaining) floor
      node) (blank : start.Blank) (forked : Forked index base.length fork newItems oldItems)
    (inside : remaining ≤ newItems.length)
    (shallow : Shallow skip base.length ((newItems.take remaining).reverse.map ForkItem.data)
      node.state) (origins : Replayed skip start base origin)
    (replayed : Replayed skip origin (oldItems.map ForkItem.data) final)
    (low : final.dgp.lastIrreversibleBlockNum ≤ floor) :
    ∃ higher ≥ floor, higher ≤ base.length ∧
      ((∃ after, Node.applyBranch skip oldItems (headId base) (newItems.take remaining).reverse
          node = .ok () after ∧
        Switching skip start index base newItems oldItems newItems higher after) ∨
      ∃ error after, Node.applyBranch skip oldItems (headId base)
          (newItems.take remaining).reverse node = .error error after ∧
        Restored skip start index base fork newItems oldItems final higher after) := by
  induction remaining generalizing floor node with
  | zero => exact ⟨floor, le_rfl, switching.below, .inl ⟨node, rfl, switching⟩⟩
  | succ remaining inductionHypothesis =>
    have isPlace : remaining < newItems.length := inside
    have upper : (newItems.take (remaining + 1)).reverse =
        newItems[remaining] :: (newItems.take remaining).reverse := by
      rw [List.take_succ_eq_append_getElem isPlace, List.reverse_append]
      rfl
    have lower : newItems.drop remaining = newItems[remaining] :: newItems.drop (remaining + 1) :=
      List.drop_eq_getElem_cons isPlace
    rw [upper, List.map_cons] at shallow
    obtain ⟨last, onward⟩ := shallow
    cases run : Node.inSession (Node.applyBlock skip newItems[remaining].data) node with
    | ok _ middle =>
      obtain ⟨applied, higher, above, next⟩ := switching.applied blank last run
      rw [← lower] at next
      obtain ⟨highest, higherLe, below, outcome⟩ := inductionHypothesis next isPlace.le
        (onward _ applied) (low.trans above)
      refine ⟨highest, above.trans higherLe, below, ?_⟩
      rw [upper, Node.applyBranch, bind_of_ok (Node.onFailure_eq_ok.mpr run)]
      exact outcome
    | error thrown middle =>
      have kept := switching.failed blank last run
      obtain ⟨after, restored, isRestored, _⟩ :=
        kept.restored blank forked (Nat.succ_pos _) origins replayed low
      refine ⟨floor, le_rfl, switching.below, .inr ⟨thrown, after, ?_, isRestored⟩⟩
      rw [upper] at restored ⊢
      rw [Node.applyBranch]
      exact bind_of_error (Node.onFailure_eq_error.mpr ⟨thrown, middle, run, .inl ⟨restored, rfl⟩⟩)

/-- A node in the middle of a switch holds the items of both branches. -/
theorem Coherent.holding (coherent : Coherent skip start chain floor node)
    (held : ∀ item ∈ newItems ++ oldItems, item ∈ node.forkDb.index) :
    Coherent skip start chain floor
      (node.withForkDb fun forkDb => { forkDb with held := newItems ++ oldItems }) := by
  refine coherent.withForkDb (coherent.linked.of_subset (fun item member => ?_) le_rfl)
  rcases ForkDatabase.mem_items.mp member with indexed | isHead | isHeld
  · exact ForkDatabase.mem_items.mpr (.inl indexed)
  · exact ForkDatabase.mem_items.mpr (.inr (.inl isHead))
  · exact ForkDatabase.mem_items.mpr (.inl (held item isHeld))

/-- The items that were held are released. -/
def released (node : NodeState) : NodeState :=
  node.withForkDb fun forkDb => { forkDb with held := [] }

theorem Coherent.released (coherent : Coherent skip start chain floor node) :
    Coherent skip start chain floor (released node) := by
  refine coherent.withForkDb (coherent.linked.of_subset (fun item member => ?_) le_rfl)
  rcases ForkDatabase.mem_items.mp member with indexed | isHead | isHeld
  · exact ForkDatabase.mem_items.mpr (.inl indexed)
  · exact ForkDatabase.mem_items.mpr (.inr (.inl isHead))
  · cases isHeld

/-- The node at the fork point. -/
theorem Coherent.popToFork
    (coherent : Coherent skip start (oldItems.map ForkItem.data ++ base) floor node)
    (blank : start.Blank) (forked : Forked node.forkDb.index base.length fork newItems oldItems)
    (enough : oldItems.length ≤ node.undoStack.length) (isHead : node.forkDb.head = some newHead)
    (starts : newItems.head? = some newHead) (pointing : ForkDatabase.Pointing newItems)
    (oldIndexed : ∀ item ∈ oldItems, item ∈ node.forkDb.index) :
    ∃ popped,
      Node.popTo (headId base)
        (node.withForkDb fun forkDb => { forkDb with held := newItems ++ oldItems }) =
          .ok () popped ∧
      Switching skip start node.forkDb.index base newItems oldItems [] floor popped ∧
      popped.blockLog = node.blockLog ∧ popped.forkDb.index = node.forkDb.index := by
  obtain ⟨rest, rfl⟩ := List.head?_eq_some_iff.mp starts
  have both : ∀ item ∈ (newHead :: rest) ++ oldItems, item ∈ node.forkDb.index := by
    intro item member
    rcases List.mem_append.mp member with isNew | isOld
    · exact forked.indexed item isNew
    · exact oldIndexed item isOld
  have length : ((oldItems.map ForkItem.data).length) = oldItems.length := List.length_map _
  have longer : rest.length + 1 = oldItems.length + 1 := forked.longer
  have top := forked.numbers 0 newHead rfl
  rw [List.length_cons] at top
  obtain ⟨state, popped, based⟩ := (coherent.holding both).popBlocksTo blank
    (length.trans_le enough) isHead pointing
    (fun prev member => .inl (forked.indexed prev (List.mem_cons_of_mem _ member)))
    (by omega)
    (fun block member => by
      obtain ⟨item, isOld, rfl⟩ := List.mem_map.mp member
      exact Option.isSome_iff_exists.mpr ⟨item, Table.find?_of_mem (oldIndexed item isOld)⟩)
    (by omega : _ < newHead.num + 2)
  refine ⟨_, ?_, ⟨based, ?_, Nat.zero_le _, ?_, rfl, fun _ member => member,
    fun _ member _ => member⟩, rfl, rfl⟩
  · rw [Node.popTo, get_bind]
    change Node.popBlocksTo (headId base) ((node.forkDb.head.map ForkItem.num).getD 0 + 2) _ = _
    rw [isHead]
    exact popped
  · have full : 0 < oldItems.length := by
      obtain ⟨_, _, isTop, _⟩ := forked.oldTop
      rw [isTop]
      exact Nat.succ_pos _
    have inside : oldItems.length - 1 < node.undoStack.length := by omega
    have revision := (coherent.history.revision_of_mem blank (List.getElem?_eq_getElem inside)).1
    have committed := coherent.committed _ (List.getElem_mem inside)
    rw [List.length_append, length] at revision
    omega
  · have last := List.getLast?_eq_some_getLast (List.cons_ne_nil newHead rest)
    refine ⟨_, List.mem_of_mem_getLast? last, last, ?_⟩
    rw [List.getLast?_eq_getElem?] at last
    have number := forked.numbers _ _ last
    rw [List.length_cons] at number
    omega

/-- A switch comes to the fork point, and goes on by applying the new branch there. -/
theorem exists_popped {entry : SavedState} (coherent : Coherent skip start chain floor node)
    (blank : start.Blank) (notHeld : node.forkDb.held = [])
    (isHead : node.forkDb.head = some newHead) (indexed : newHead ∈ node.forkDb.index)
    (number : newHead.num = chain.length + 1)
    (same : ∀ item ∈ node.forkDb.items, ∀ block ∈ chain, item.id = block.id → item.data = block)
    (fetched : node.forkDb.fetchBranchFrom newHead.id node.headBlockId = .ok (newItems, oldItems))
    (rooted : ∃ fork ∈ node.forkDb.index, oldItems.getLast?.bind ForkItem.prev = some fork.serial)
    (saved : entry ∈ node.undoStack) (atFork : entry.state.dgp.headBlockId = forkPoint oldItems) :
    ∃ base fork popped, chain = oldItems.map ForkItem.data ++ base ∧
      forkPoint oldItems = headId base ∧ newItems.head? = some newHead ∧
      ForkDatabase.Pointing newItems ∧ (∀ item ∈ oldItems, item ∈ node.forkDb.index) ∧
      Forked node.forkDb.index base.length fork newItems oldItems ∧
      oldItems.length ≤ node.undoStack.length ∧
      Replayed skip start base entry.state ∧
      Replayed skip entry.state (oldItems.map ForkItem.data) node.state ∧
      popped.state = entry.state ∧ popped.blockLog = node.blockLog ∧
      popped.forkDb.index = node.forkDb.index ∧
      Switching skip start node.forkDb.index base newItems oldItems [] floor popped ∧
      (∀ after, Node.applyBranch skip oldItems (headId base) newItems.reverse popped =
        .ok () after → Node.switchFork skip newHead node = .ok () (released after)) ∧
      ∀ error after, Node.applyBranch skip oldItems (headId base) newItems.reverse popped =
        .error error after → Node.switchFork skip newHead node = .error error (released after) := by
  rw [coherent.headBlockId blank] at fetched
  obtain ⟨base, fork, rfl, stands, forked, starts, pointing, oldIndexed⟩ :=
    exists_forked coherent.linked notHeld isHead indexed number blank coherent.history.replayed same
      fetched rooted
  obtain ⟨enough, origins, replayed⟩ :=
    coherent.history.exists_of_headId blank saved (atFork.trans stands)
  rw [List.length_map] at enough
  obtain ⟨popped, run, switching, log, index⟩ := coherent.popToFork blank forked enough isHead starts
    pointing oldIndexed
  have atOrigin : popped.state = entry.state :=
    switching.coherent.history.replayed.unique origins.replayed
  have starting : Node.switchFork skip newHead node =
      (Node.holding (newItems ++ oldItems) do
        Node.popTo (headId base)
        Node.applyBranch skip oldItems (headId base) newItems.reverse) node := by
    unfold Node.switchFork
    rw [get_bind, bind_of_ok (lift_eq_ok.mpr ⟨(coherent.headBlockId blank).symm ▸ fetched, rfl⟩)]
    rw [← stands]
    rfl
  refine ⟨base, fork, popped, rfl, stands, starts, pointing, oldIndexed, forked, enough,
    origins.replayed, replayed, atOrigin, log, index, switching, fun after applied => ?_,
    fun error after failed => ?_⟩
  · rw [starting]
    unfold Node.holding
    rw [modify_bind, bind_of_ok (Node.onFailure_eq_ok.mpr ((bind_of_ok run).trans applied))]
    rfl
  · rw [starting]
    unfold Node.holding
    rw [modify_bind]
    exact bind_of_error (Node.onFailure_modify ((bind_of_ok run).trans failed))

/-- A switch goes to the new branch, or back to the state the node had. -/
theorem switchFork_cases {entry : SavedState} (coherent : Coherent skip start chain floor node)
    (blank : start.Blank) (notHeld : node.forkDb.held = [])
    (isHead : node.forkDb.head = some newHead) (indexed : newHead ∈ node.forkDb.index)
    (number : newHead.num = chain.length + 1)
    (same : ∀ item ∈ node.forkDb.items, ∀ block ∈ chain, item.id = block.id → item.data = block)
    (fetched : node.forkDb.fetchBranchFrom newHead.id node.headBlockId = .ok (newItems, oldItems))
    (rooted : ∃ fork ∈ node.forkDb.index, oldItems.getLast?.bind ForkItem.prev = some fork.serial)
    (saved : entry ∈ node.undoStack) (atFork : entry.state.dgp.headBlockId = forkPoint oldItems)
    (shallow : Shallow skip (forkPoint oldItems).num (newItems.reverse.map ForkItem.data)
      entry.state) :
    ∃ base fork higher, floor ≤ higher ∧ higher ≤ base.length ∧
      chain = oldItems.map ForkItem.data ++ base ∧ newItems.head? = some newHead ∧
      (∀ item ∈ oldItems, item ∈ node.forkDb.index) ∧
      Forked node.forkDb.index base.length fork newItems oldItems ∧
      ((∃ after, Node.switchFork skip newHead node = .ok () (released after) ∧
          Switching skip start node.forkDb.index base newItems oldItems newItems higher after) ∨
        ∃ error after, Node.switchFork skip newHead node = .error error (released after) ∧
          Restored skip start node.forkDb.index base fork newItems oldItems node.state higher
            after) := by
  obtain ⟨base, fork, popped, whole, stands, starts, _, oldIndexed, forked, _, origins, replayed,
    atOrigin, _, _, switching, finish, stop⟩ :=
    exists_popped coherent blank notHeld isHead indexed number same fetched rooted saved atFork
  rw [stands, (origins.head blank).2.2, ← atOrigin] at shallow
  obtain ⟨higher, above, below, outcome⟩ :=
    (show Switching skip start node.forkDb.index base newItems oldItems
        (newItems.drop newItems.length) floor popped by
      rw [List.drop_length]
      exact switching).applyBranch blank forked le_rfl (by rwa [List.take_length]) origins replayed
      coherent.irreversible
  rw [List.take_length] at outcome
  refine ⟨base, fork, higher, above, below, whole, starts, oldIndexed, forked, ?_⟩
  rcases outcome with ⟨after, applied, done⟩ | ⟨error, after, failed, restored⟩
  · exact .inl ⟨after, finish after applied, done⟩
  · exact .inr ⟨error, after, stop error after failed, restored⟩

end

end Zattera
