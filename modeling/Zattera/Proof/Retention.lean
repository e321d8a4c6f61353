/-
This file shows that a node keeps every block of its chain: the oldest ones in the
block log, the others in the fork database, where each points to the one below it.
The step for irreversibility moves blocks from the one to the other. It looks them
up by their numbers, and where there are several of one height it walks down from
the head of the fork database; so that head has to stand on the chain whenever a
block is applied.

Going back from a failed switch applies blocks under a fork database whose head is
higher than they are, and what is pruned then goes by that head. A switch that may
fail keeps the blocks only if there is room for this.
-/

import Zattera.Proof.Branches

namespace Zattera

open Program

variable {chain : List SignedBlock} {block : SignedBlock} {skip : SkipFlags}
  {state origin : ChainState} {forkDb : ForkDatabase}

/-! ### Walking down the main branch -/

namespace ForkDatabase

variable {forkDb : ForkDatabase} {top item : ForkItem} {items : List ForkItem}

theorem Pointing.of_prefix {upper : List ForkItem} (pointing : Pointing (top :: items))
    (part : upper <+: items) : Pointing (top :: upper) := by
  obtain ⟨rest, rfl⟩ := part
  have whole : Pointing ((top :: upper) ++ rest) := pointing
  exact List.IsChain.left_of_append whole

theorem Pointing.trail (pointing : Pointing (top :: items)) (linked : forkDb.Linked)
    (members : ∀ item ∈ items, item ∈ forkDb.items) : forkDb.Trail (top :: items) := by
  induction items generalizing top with
  | nil => exact List.isChain_singleton _
  | cons prev items inductionHypothesis =>
    obtain ⟨points, pointing⟩ := List.isChain_cons_cons.mp pointing
    obtain ⟨member, members⟩ := List.forall_mem_cons.mp members
    refine List.isChain_cons_cons.mpr ⟨?_, inductionHypothesis pointing members⟩
    rw [points]
    exact linked.lock_serial member

theorem walkDown_of_trail (linked : forkDb.Linked) {bound : Nat}
    (trail : forkDb.Trail (top :: items)) (member : top ∈ forkDb.items) (enough : top.num < bound)
    (found : item ∈ top :: items) : forkDb.walkDown item.num bound top = some item := by
  induction items generalizing top bound with
  | nil =>
    obtain ⟨more, rfl⟩ : ∃ more, bound = more + 1 := ⟨bound - 1, by omega⟩
    obtain rfl := List.mem_singleton.mp found
    rw [walkDown, if_neg (lt_irrefl _)]
  | cons prev items inductionHypothesis =>
    obtain ⟨more, rfl⟩ : ∃ more, bound = more + 1 := ⟨bound - 1, by omega⟩
    rcases List.mem_cons.mp found with rfl | lower
    · rw [walkDown, if_neg (lt_irrefl _)]
    · obtain ⟨place, inside, rfl⟩ := List.getElem_of_mem lower
      have number := (trail.num_add linked member
        ((List.getElem?_cons_succ (a := top)).trans (List.getElem?_eq_getElem inside))).2
      obtain ⟨locked, trail⟩ := List.isChain_cons_cons.mp trail
      have step := (linked.num_of_lock member locked).2
      rw [walkDown, if_pos (by omega), locked]
      exact inductionHypothesis trail (mem_of_lock locked).1 (by omega) lower

/-- A block on the way down from the head is found by its number, also among others. -/
theorem fetchBlockOnMainBranchByNumber_of_pointing (linked : forkDb.Linked)
    (isHead : forkDb.head = some top) (pointing : Pointing (top :: items))
    (indexed : ∀ item ∈ items, item ∈ forkDb.index) (member : item ∈ items) :
    forkDb.fetchBlockOnMainBranchByNumber item.num = some item := by
  have exist : ∀ item ∈ items, item ∈ forkDb.items :=
    fun item member => mem_items.mpr (.inl (indexed item member))
  have topMember : top ∈ forkDb.items := mem_items.mpr (.inr (.inl isHead))
  have trail := pointing.trail linked exist
  have found : item ∈ forkDb.fetchBlockByNumber item.num :=
    List.mem_filter.mpr ⟨indexed item member, decide_eq_true rfl⟩
  unfold fetchBlockOnMainBranchByNumber
  split
  · next only single =>
    rw [single] at found
    rw [List.mem_singleton.mp found]
  · next none =>
    rw [none] at found
    cases found
  · obtain ⟨place, inside, rfl⟩ := List.getElem_of_mem member
    have number := (trail.num_add linked topMember
      ((List.getElem?_cons_succ (a := top)).trans (List.getElem?_eq_getElem inside))).2
    unfold walkMainBranchToNum
    rw [isHead, Option.bind_some, if_neg (by omega)]
    exact walkDown_of_trail linked trail topMember (Nat.lt_succ_self _)
      (List.mem_cons_of_mem _ member)

theorem mem_index_add_of_mem {prev : Option Nat} (member : item ∈ forkDb.index) :
    item ∈ (forkDb.add prev block).index := by
  change item ∈ (forkDb.index.insert? ⟨forkDb.nextSerial, prev, block⟩).getD forkDb.index
  cases inserted : forkDb.index.insert? ⟨forkDb.nextSerial, prev, block⟩ with
  | none => exact member
  | some index => exact (Table.mem_of_insert? inserted).mpr (.inl member)

/-- Items of an index with the same blocks are the same. -/
theorem eq_of_map_data {index : Table BlockId ForkItem ForkItem.id} {others : List ForkItem}
    (indexed : ∀ item ∈ items, item ∈ index) (othersIndexed : ∀ item ∈ others, item ∈ index)
    (same : items.map ForkItem.data = others.map ForkItem.data) : items = others := by
  induction items generalizing others with
  | nil => exact (List.map_eq_nil_iff.mp same.symm).symm
  | cons item items inductionHypothesis =>
    cases others with
    | nil => cases same
    | cons other others =>
      obtain ⟨data, rest⟩ := List.cons.inj same
      obtain ⟨member, indexed⟩ := List.forall_mem_cons.mp indexed
      obtain ⟨otherMember, othersIndexed⟩ := List.forall_mem_cons.mp othersIndexed
      have found := Table.find?_of_mem otherMember
      rw [show other.id = item.id from congrArg SignedBlock.id data.symm,
        Table.find?_of_mem member] at found
      rw [Option.some.inj found, inductionHypothesis indexed othersIndexed rest]

end ForkDatabase

/-! ### What is moved to the log -/

theorem Replayed.numbered {start : ChainState} (replayed : Replayed skip start chain state)
    (blank : start.Blank) : Numbered chain := by
  induction replayed with
  | start => trivial
  | block earlier next applied inductionHypothesis =>
    exact ⟨((earlier.block next applied).previous blank).2, inductionHypothesis⟩

theorem Numbered.drop {above : List SignedBlock} (numbered : Numbered (above ++ chain)) :
    Numbered chain := by
  induction above with
  | nil => exact numbered
  | cons block above inductionHypothesis => exact inductionHypothesis numbered.2

/-- Blocks that are moved to the log are taken from the bottom of the chain's items. -/
theorem Appended.split {top : ForkItem} {lower : List ForkItem} {number : Nat}
    {log later : List SignedBlock} (appended : Appended forkDb number log later)
    (linked : forkDb.Linked) (isHead : forkDb.head = some top)
    (pointing : ForkDatabase.Pointing (top :: lower))
    (indexed : ∀ item ∈ lower, item ∈ forkDb.index) (atEnd : number = log.length)
    (numbered : Numbered (lower.map ForkItem.data ++ log))
    (short : later.length ≤ lower.length + log.length) :
    ∃ upper, upper <+: lower ∧
      lower.map ForkItem.data ++ log = upper.map ForkItem.data ++ later := by
  induction appended generalizing lower with
  | none => exact ⟨lower, List.prefix_rfl, rfl⟩
  | @block number item log later fetched follows rest inductionHypothesis =>
    have longer := rest.suffix.length_le
    rw [List.length_cons] at longer
    obtain ⟨above, bottom, rfl⟩ : ∃ above bottom, lower = above ++ [bottom] := by
      refine ⟨lower.dropLast, lower.getLast ?_, (List.dropLast_concat_getLast _).symm⟩
      rintro rfl
      rw [List.length_nil] at short
      omega
    have whole : (above ++ [bottom]).map ForkItem.data ++ log =
        above.map ForkItem.data ++ bottom.data :: log := by
      rw [List.map_append, List.append_assoc]
      rfl
    rw [whole] at numbered
    have bottomNum : bottom.num = log.length + 1 := numbered.drop.1
    have isBottom := ForkDatabase.fetchBlockOnMainBranchByNumber_of_pointing linked isHead pointing
      indexed (List.mem_append_right _ List.mem_cons_self)
    rw [bottomNum, ← atEnd, fetched] at isBottom
    obtain rfl := Option.some.inj isBottom
    obtain ⟨upper, part, same⟩ := inductionHypothesis
      (pointing.of_prefix (List.prefix_append _ _))
      (fun item member => indexed item (List.mem_append_left _ member))
      (by rw [atEnd, List.length_cons]) numbered
      (by rw [List.length_append, List.length_singleton] at short; rw [List.length_cons]; omega)
    exact ⟨upper, part.trans (List.prefix_append _ _), whole.trans same⟩

theorem Numbered.num_le (numbered : Numbered chain) (member : block ∈ chain) :
    block.blockNum ≤ chain.length := by
  induction chain with
  | nil => cases member
  | cons newest chain inductionHypothesis =>
    rcases List.mem_cons.mp member with rfl | older
    · exact numbered.1.le
    · exact (inductionHypothesis numbered.2 older).trans (Nat.le_succ _)

/-- The blocks above some others have higher numbers. -/
theorem Numbered.lt_num {above : List SignedBlock} (numbered : Numbered (above ++ chain))
    (member : block ∈ above) : chain.length < block.blockNum := by
  induction above with
  | nil => cases member
  | cons newest above inductionHypothesis =>
    rcases List.mem_cons.mp member with rfl | older
    · have number : block.blockNum = (above ++ chain).length + 1 := numbered.1
      rw [List.length_append] at number
      omega
    · exact inductionHypothesis numbered.2 older

/-- The part of the chain that a block is applied on: its oldest blocks are in the log, and the head
of the fork database leads down to the others. -/
structure Lowered (base : List SignedBlock) (lower : List ForkItem) (node : NodeState) : Prop where
  whole : base = lower.map ForkItem.data ++ node.blockLog
  indexed : ∀ item ∈ lower, item ∈ node.forkDb.index
  head : ∃ top, node.forkDb.head = some top ∧ top.num = base.length + 1 ∧
    ForkDatabase.Pointing (top :: lower)

section

variable {skip : SkipFlags} {start : ChainState} {base : List SignedBlock} {lower : List ForkItem}
  {node after : NodeState} {block : SignedBlock} {log : List SignedBlock}

/-- Moving blocks to the log, with what is pruned on that occasion. -/
theorem Lowered.moved (lowered : Lowered base lower node) (linked : node.forkDb.Linked)
    (numbered : Numbered base) (appended : Appended node.forkDb node.logHeadNum node.blockLog log)
    (short : log.length ≤ base.length) (isLog : after.blockLog = log)
    (forkDb : after.forkDb = node.forkDb ∨ ∃ size, after.forkDb = node.forkDb.setMaxSize size ∧
      base.length ≤ size + log.length) :
    ∃ upper, upper <+: lower ∧ Lowered base upper after := by
  obtain ⟨whole, indexed, top, isHead, topNum, pointing⟩ := lowered
  have logNumbered : Numbered node.blockLog := (whole ▸ numbered).drop
  have length : base.length = lower.length + node.blockLog.length := by
    rw [whole, List.length_append, List.length_map]
  obtain ⟨upper, part, same⟩ := appended.split linked isHead pointing indexed
    logNumbered.logHeadNum (whole ▸ numbered) (by omega)
  have whole : base = upper.map ForkItem.data ++ log := whole.trans same
  refine ⟨upper, part, isLog ▸ whole, fun item member => ?_, top, ?_, topNum,
    pointing.of_prefix part⟩
  · have inside := indexed item (part.subset member)
    have high : log.length < item.num :=
      (whole ▸ numbered).lt_num (List.mem_map_of_mem member)
    rcases forkDb with same | ⟨size, same, room⟩
    · rwa [same]
    · rw [same]
      refine ForkDatabase.mem_index_setMaxSize inside fun head atTop => ?_
      obtain rfl := Option.some.inj (isHead.symm.trans atTop)
      omega
  · rcases forkDb with same | ⟨size, same, _⟩
    · rw [same, isHead]
    · rw [same, (ForkDatabase.pruned_setMaxSize _ _).head, isHead]

theorem Node.Logged.length_eq {last : Nat} (logged : Node.Logged skip node last log)
    (logging : skip.blockLog = false) (numbered : Numbered node.blockLog) :
    log.length = max node.blockLog.length last := by
  have length := logged.length
  rw [logging, if_neg Bool.false_ne_true, numbered.logHeadNum] at length
  omega

theorem Lowered.extended (lowered : Lowered base lower node) (linked : node.forkDb.Linked)
    (numbered : Numbered base) (logging : skip.blockLog = false)
    (low : node.state.irreversibleWith block ≤ base.length) (high : base.length < block.blockNum)
    (state : ChainState) (logged : Node.Logged skip node (node.state.irreversibleWith block) log) :
    ∃ upper, upper <+: lower ∧ Lowered base upper (node.extended block state log) := by
  have logNumbered : Numbered node.blockLog := (lowered.whole ▸ numbered).drop
  have length := logged.length_eq logging logNumbered
  have whole : base.length = _ := congrArg List.length lowered.whole
  rw [List.length_append] at whole
  exact lowered.moved linked numbered logged.appended (by omega) rfl
    (.inr ⟨_, rfl, by omega⟩)

theorem Lowered.failed (lowered : Lowered base lower node) (linked : node.forkDb.Linked)
    (numbered : Numbered base) (logging : skip.blockLog = false)
    (low : node.state.irreversibleWith block ≤ base.length) (high : base.length < block.blockNum)
    (recent : node.state.irreversibleWith block ≤ node.revision) {error : ChainError}
    (stopped : Node.inSession (Node.applyBlock skip block) node = .error error after) :
    ∃ upper, upper <+: lower ∧ Lowered base upper after := by
  have logNumbered : Numbered node.blockLog := (lowered.whole ▸ numbered).drop
  have whole : base.length = _ := congrArg List.length lowered.whole
  rw [List.length_append] at whole
  rcases Node.inSession_applyBlock_eq_error (fun _ => recent) stopped with
    rfl | ⟨_, log, forkDb, appended, _, length, changed, rfl⟩
  · exact ⟨lower, List.prefix_rfl, lowered⟩
  rw [logNumbered.logHeadNum] at length
  refine lowered.moved linked numbered appended (by omega) rfl ?_
  refine changed.imp id fun ⟨logged, pruned⟩ => ⟨_, pruned, ?_⟩
  have logLength := logged.length_eq logging logNumbered
  omega

end

/-! ### Blocks on top of the chain -/

/-- The node has every block of its chain: the oldest ones in its log, the others in the index of its
fork database, where each points to the next. -/
structure Retained (chain : List SignedBlock) (items : List ForkItem) (node : NodeState) : Prop where
  whole : chain = items.map ForkItem.data ++ node.blockLog
  indexed : ∀ item ∈ items, item ∈ node.forkDb.index
  pointing : ForkDatabase.Pointing items
  /-- A block that failed on top of the chain still points to it. -/
  child : ∀ head, node.forkDb.head = some head → head.previousId = headId chain →
    ForkDatabase.Pointing (head :: items)

section

variable {skip : SkipFlags} {start : ChainState} {pushed chain : List SignedBlock} {floor : Nat}
  {items : List ForkItem} {node : NodeState} {block : SignedBlock} {prev : Option Nat}

theorem retained_opened (start : ChainState) : Retained [] [] (.opened start) where
  whole := rfl
  indexed := nofun
  pointing := List.isChain_nil
  child _ _ _ := List.isChain_singleton _

variable (retained : Retained chain items node) (sound : Sound skip start pushed chain floor node)

include retained sound

theorem Retained.stored (blank : start.Blank) (low : block.blockNum ≤ node.headBlockNum) :
    Retained chain items { node with forkDb := node.forkDb.add prev block } where
  whole := retained.whole
  indexed item member := ForkDatabase.mem_index_add_of_mem (retained.indexed item member)
  pointing := retained.pointing
  child head isHead follows := by
    obtain ⟨newHead, atTop, origin⟩ := node.forkDb.head_add prev block
    obtain rfl := Option.some.inj (atTop.symm.trans isHead)
    rcases origin with rfl | ⟨older, _⟩
    · refine absurd follows (previousId_ne_headId sound blank ?_)
      exact low.trans_eq (sound.coherent.headBlockNum blank)
    · exact retained.child newHead older follows

/-- A new item on top of the chain points to the newest block of the chain. -/
theorem Retained.pointing_new
    (origin : prev = none ∧ (node.forkDb.head = none ∨ block.previous = default) ∨
      ∃ item, node.forkDb.index.find? block.previous = some item ∧ prev = some item.serial)
    (previous : block.previous = headId chain) :
    ForkDatabase.Pointing (⟨node.forkDb.nextSerial, prev, block⟩ :: items) := by
  cases items with
  | nil => exact List.isChain_singleton _
  | cons item rest =>
    obtain ⟨newest, earlier, isChain⟩ : ∃ newest earlier, chain = newest :: earlier :=
      ⟨_, _, retained.whole⟩
    have isNewest : item.data = newest := (List.cons.inj (retained.whole.symm.trans isChain)).1
    have itemId : item.id = block.previous := by
      rw [previous, isChain, ← isNewest]
      rfl
    refine List.isChain_cons_cons.mpr ⟨?_, retained.pointing⟩
    rcases origin with ⟨_, absent | first⟩ | ⟨parent, found, isPrev⟩
    · rw [sound.started absent] at isChain
      cases isChain
    · rw [first] at itemId
      cases congrArg BlockId.num itemId
    · rw [← itemId, Table.find?_of_mem (retained.indexed item List.mem_cons_self)] at found
      rw [isPrev, Option.some.inj found]

/-- A step that keeps the blocks of the chain, and leaves the chain alone when it fails. -/
def Retained.Steps (skip : SkipFlags) (start : ChainState) (pushed chain : List SignedBlock) :
    EStateM.Result ChainError NodeState Bool → Prop
  | .ok _ after => ∃ longer items, Retained longer items after ∧
      Replayed skip start longer after.state ∧ ∀ block ∈ longer, block ∈ pushed
  | .error _ after => ∃ items, Retained chain items after

theorem Retained.steps_stored (blank : start.Blank) (inUse : skip.forkDb = false)
    (taken : node.forkDb.pushBlock block = .ok forkDb)
    (low : block.blockNum ≤ node.headBlockNum)
    (synced : ∀ head ∈ node.forkDb.head, head.num ≤ node.headBlockNum) :
    Retained.Steps skip start (block :: pushed) chain (Node.pushBlock skip block node) := by
  rw [sound.pushBlock_of_stored blank inUse taken low synced]
  obtain ⟨prev, rfl, _⟩ := ForkDatabase.pushBlock_eq_ok taken
  exact ⟨chain, items, retained.stored sound blank low, sound.coherent.history.replayed,
    fun block member => List.mem_cons_of_mem _ (sound.blocks block member)⟩

theorem Retained.steps_follows (blank : start.Blank) (inUse : skip.forkDb = false)
    (logging : skip.blockLog = false)
    (taken : node.forkDb.pushBlock block = .ok forkDb)
    (previous : block.previous = node.headBlockId) (synced : ∀ head, node.forkDb.head = some head →
      head.num ≤ node.headBlockNum ∨ head.previousId = node.headBlockId)
    (reversible : node.state.irreversibleWith block < block.blockNum) :
    Retained.Steps skip start (block :: pushed) chain (Node.pushBlock skip block node) := by
  obtain ⟨coherent, _, _, _⟩ := sound.taken taken
  obtain ⟨prev, rfl, origin⟩ := ForkDatabase.pushBlock_eq_ok taken
  have numbered := sound.coherent.history.replayed.numbered blank
  have isHeadId := sound.coherent.headBlockId blank
  have number : block.blockNum = chain.length + 1 := by
    rw [SignedBlock.blockNum, previous, isHeadId,
      sound.coherent.history.replayed.headId_num blank]
  have fresh : node.forkDb.index.find? block.id = none := by
    refine Table.find?_eq_none_iff.mpr fun item member same => ?_
    have equal : item.num = block.blockNum := congrArg BlockId.num same
    have := sound.low item member
    omega
  obtain ⟨newHead, isHead, isNew⟩ := node.forkDb.head_add prev block
  have points := retained.pointing_new sound origin (previous.trans isHeadId)
  have follows : newHead.previousId = node.headBlockId ∧
      ForkDatabase.Pointing (newHead :: items) := by
    rcases isNew with rfl | ⟨older, high⟩
    · exact ⟨previous, points⟩
    · have child : newHead.previousId = node.headBlockId := by
        refine (synced newHead older).resolve_left fun low => ?_
        rw [sound.coherent.headBlockNum blank] at low
        omega
      exact ⟨child, retained.child newHead older (child.trans isHeadId)⟩
  have topNum : newHead.num = chain.length + 1 :=
    (congrArg (fun id : BlockId => id.num + 1) (follows.1.trans previous.symm)).trans number
  have lowered : Lowered chain items { node with forkDb := node.forkDb.add prev block } :=
    ⟨retained.whole, fun item member => ForkDatabase.mem_index_add_of_mem
      (retained.indexed item member), newHead, isHead, topNum, follows.2⟩
  rw [(pushBlock_of_taken inUse taken isHead).trans (followHead_of_follows follows.1)]
  unfold Node.extendHead
  cases run : Node.inSession (Node.applyBlock skip block)
      { node with forkDb := node.forkDb.add prev block } with
  | ok _ after =>
    obtain ⟨state, log, applied, logged, rfl⟩ := Node.inSession_applyBlock_eq_ok.mp run
    rw [bind_of_ok (Node.onFailure_eq_ok.mpr run)]
    obtain ⟨upper, part, kept⟩ := lowered.extended coherent.linked numbered logging
      (show node.state.irreversibleWith block ≤ _ by omega) (by omega : _ < block.blockNum) state
      logged
    obtain ⟨top, isTop, topNum, _⟩ := kept.head
    refine ⟨block :: chain, ⟨node.forkDb.nextSerial, prev, block⟩ :: upper, ⟨?_, ?_, ?_, ?_⟩,
      coherent.history.replayed.block block applied, ?_⟩
    · exact congrArg (block :: ·) kept.whole
    · refine List.forall_mem_cons.mpr ⟨?_, kept.indexed⟩
      refine ForkDatabase.mem_index_setMaxSize (ForkDatabase.mem_index_add_self fresh)
        fun head atTop => ?_
      obtain rfl := Option.some.inj (isHead.symm.trans atTop)
      change _ ≤ block.blockNum
      omega
    · exact points.of_prefix part
    · intro head atTop same
      obtain rfl := Option.some.inj (isTop.symm.trans atTop)
      have above : top.num = block.blockNum + 1 :=
        congrArg (fun id : BlockId => id.num + 1) same
      omega
    · exact List.forall_mem_cons.mpr ⟨List.mem_cons_self, fun other member =>
        List.mem_cons_of_mem _ (sound.blocks other member)⟩
  | error error after =>
    rw [bind_of_error (Node.onFailure_modify run)]
    obtain ⟨upper, part, kept⟩ := lowered.failed coherent.linked numbered logging
      (show node.state.irreversibleWith block ≤ _ by omega) (by omega : _ < block.blockNum)
      (show node.state.irreversibleWith block ≤ _ by rw [coherent.revision]; omega) run
    obtain ⟨top, isTop, _, pointing⟩ := kept.head
    refine ⟨upper, kept.whole, fun item member => ?_, pointing.tail, fun head atTop _ => ?_⟩
    · refine Table.mem_erase.mpr ⟨kept.indexed item member, fun same => ?_⟩
      have isNum : item.num = block.blockNum := congrArg BlockId.num same
      have low : item.num ≤ chain.length := numbered.num_le
        (retained.whole ▸ List.mem_append_left _ (List.mem_map_of_mem (part.subset member)))
      omega
    · obtain rfl := Option.some.inj (isTop.symm.trans atTop)
      exact pointing

end

/-! ### Switching to another branch -/

theorem Spared.mono {top lower number higher : Nat} {blocks : List SignedBlock}
    (spared : Spared skip top number origin blocks) (below : lower ≤ top) (above : number ≤ higher) :
    Spared skip lower higher origin blocks := by
  intro upper block rest state same replayed
  have := spared upper block rest state same replayed
  omega

section

variable {skip : SkipFlags} {start : ChainState} {index : Table BlockId ForkItem ForkItem.id}
  {base : List SignedBlock} {fork : ForkItem} {newItems oldItems lower : List ForkItem} {floor : Nat}
  {node : NodeState}

/-- What is kept while the new branch is applied, and when the node goes back. The items of the old
branch are not among those of the new one. -/
theorem Lowered.applyBranch {remaining logged : Nat} {final : ChainState}
    (lowered : Lowered base lower node)
    (switching : Switching skip start index base newItems oldItems (newItems.drop remaining) floor
      node) (blank : start.Blank) (logging : skip.blockLog = false)
    (forked : Forked index base.length fork newItems oldItems)
    (inside : remaining ≤ newItems.length)
    (shallow : Shallow skip base.length ((newItems.take remaining).reverse.map ForkItem.data)
      node.state) (origins : Replayed skip start base origin)
    (replayed : Replayed skip origin (oldItems.map ForkItem.data) final)
    (low : final.dgp.lastIrreversibleBlockNum ≤ floor)
    (oldIndexed : ∀ item ∈ oldItems, item ∈ index)
    (oldNums : ∀ item ∈ oldItems, base.length < item.num ∧ item.num ≤ base.length + oldItems.length)
    (apart : ∀ item ∈ oldItems, ∀ gone ∈ newItems, item.id ≠ gone.id)
    (isLogged : logged ≤ node.blockLog.length)
    (room : Spared skip (base.length + oldItems.length) (logged + 1) origin
      (oldItems.map ForkItem.data)) :
    (∀ after, Node.applyBranch skip oldItems (headId base) (newItems.take remaining).reverse node =
        .ok () after → ∃ kept, kept <+: lower ∧ Lowered base kept after) ∧
      ∀ error after, Node.applyBranch skip oldItems (headId base)
          (newItems.take remaining).reverse node = .error error after →
        ∃ kept, kept <+: lower ∧ base = kept.map ForkItem.data ++ after.blockLog ∧
          ∀ item ∈ oldItems ++ kept, item ∈ after.forkDb.index := by
  induction remaining generalizing floor node lower with
  | zero =>
    refine ⟨fun after run => ?_, fun error after run => ?_⟩
    · obtain ⟨_, rfl⟩ := pure_eq_ok.mp run
      exact ⟨lower, List.prefix_rfl, lowered⟩
    · cases pure_eq_error.mp run
  | succ remaining inductionHypothesis =>
    have isPlace : remaining < newItems.length := inside
    have upper : (newItems.take (remaining + 1)).reverse =
        newItems[remaining] :: (newItems.take remaining).reverse := by
      rw [List.take_succ_eq_append_getElem isPlace, List.reverse_append]
      rfl
    have downward : newItems.drop remaining = newItems[remaining] :: newItems.drop (remaining + 1) :=
      List.drop_eq_getElem_cons isPlace
    rw [upper, List.map_cons] at shallow
    obtain ⟨last, onward⟩ := shallow
    have numbered := origins.numbered blank
    have linked := switching.coherent.linked
    have high : base.length < newItems[remaining].data.blockNum :=
      forked.lt_num (List.getElem_mem isPlace)
    cases run : Node.inSession (Node.applyBlock skip newItems[remaining].data) node with
    | ok _ middle =>
      obtain ⟨applied, higher, above, next⟩ := switching.applied blank last run
      obtain ⟨state, log, _, isLog, rfl⟩ := Node.inSession_applyBlock_eq_ok.mp run
      obtain ⟨part, isPart, kept⟩ := lowered.extended linked numbered logging last high state isLog
      rw [← downward] at next
      have grown := isLog.appended.suffix.length_le
      obtain ⟨finished, stopped⟩ := inductionHypothesis kept next isPlace.le (onward _ applied)
        (low.trans above) (isLogged.trans grown)
      rw [upper, Node.applyBranch, bind_of_ok (Node.onFailure_eq_ok.mpr run)]
      refine ⟨fun after finish => ?_, fun error after stop => ?_⟩
      · obtain ⟨less, isLess, done⟩ := finished after finish
        exact ⟨less, isLess.trans isPart, done⟩
      · obtain ⟨less, isLess, done⟩ := stopped error after stop
        exact ⟨less, isLess.trans isPart, done⟩
    | error thrown middle =>
      have failed := switching.failed blank last run
      have recent : node.state.irreversibleWith newItems[remaining].data ≤ node.revision := by
        rw [switching.coherent.revision, List.length_append]
        omega
      obtain ⟨part, isPart, kept⟩ := lowered.failed linked numbered logging last high recent run
      obtain ⟨back, restored, _, isLog, stays⟩ :=
        failed.restored blank forked (Nat.succ_pos _) origins replayed low
      have result : Node.applyBranch skip oldItems (headId base)
          (newItems.take (remaining + 1)).reverse node = .error thrown back := by
        rw [upper] at restored ⊢
        rw [Node.applyBranch]
        exact bind_of_error
          (Node.onFailure_eq_error.mpr ⟨thrown, middle, run, .inl ⟨restored, rfl⟩⟩)
      rw [result]
      refine ⟨fun after same => ?_, fun error after same => ?_⟩
      · cases same
      obtain ⟨rfl, rfl⟩ := EStateM.Result.error.inj same
      refine ⟨part, isPart, isLog ▸ kept.whole, fun item member => ?_⟩
      have length : base.length = _ := congrArg List.length lowered.whole
      have afterLength : base.length = _ := congrArg List.length kept.whole
      rw [List.length_append, List.length_map] at length afterLength
      have shorter := isPart.length_le
      have topNum : ∀ top ∈ oldItems ++ [fork], top.num ≤ base.length + oldItems.length := by
        intro top isTop
        rcases List.mem_append.mp isTop with isOld | isFork
        · exact (oldNums top isOld).2
        · rw [List.mem_singleton.mp isFork, forked.forkNumber]
          exact Nat.le_add_right _ _
      rcases List.mem_append.mp member with isOld | isLower
      · have above := (oldNums item isOld).1
        refine stays item (failed.kept item (oldIndexed item isOld) above.le)
          (fun gone isGone => apart item isOld gone (List.mem_of_mem_take isGone))
          fun top isTop => room.mono (topNum top isTop) ?_
        omega
      · have above : middle.blockLog.length < item.num :=
          (kept.whole ▸ numbered).lt_num (List.mem_map_of_mem isLower)
        have below : item.num ≤ base.length :=
          numbered.num_le (kept.whole ▸ List.mem_append_left _ (List.mem_map_of_mem isLower))
        refine stays item (kept.indexed item isLower) (fun gone isGone sameId => ?_)
          fun top isTop => room.mono (topNum top isTop) ?_
        · have isNum : item.num = gone.num := congrArg BlockId.num sameId
          have aboveBase := forked.lt_num (List.mem_of_mem_take isGone)
          omega
        · omega

end

/-! ### Steps and runs -/

/-- The branches that a block would make the node switch between. -/
def NodeState.branchesTo (node : NodeState) (block : SignedBlock) :
    Option (List ForkItem × List ForkItem) :=
  match node.forkDb.pushBlock block with
  | .ok forkDb => (forkDb.fetchBranchFrom block.id node.headBlockId).toOption
  | .error _ => none

/-- In a switch to the branch of a block, the two branches stand on the same item, which is not below
the log, and applying the old branch again prunes nothing that is not in the log. -/
def NodeState.Roomy (node : NodeState) (block : SignedBlock) : Prop :=
  ∀ branches ∈ node.branchesTo block,
    branches.1.getLast?.bind ForkItem.prev = branches.2.getLast?.bind ForkItem.prev ∧
    node.logHeadNum ≤ (forkPoint branches.2).num ∧
    ∀ saved ∈ node.undoStack, (forkPoint branches.2).num < saved.state.dgp.headBlockNumber →
      node.headBlockNum + saved.state.dgp.lastIrreversibleBlockNum ≤
        node.logHeadNum + saved.state.dgp.headBlockNumber + 2

instance (node : NodeState) (block : SignedBlock) : Decidable (node.Roomy block) := by
  unfold NodeState.Roomy
  infer_instance

section

variable {skip : SkipFlags} {start : ChainState} {pushed chain : List SignedBlock} {floor : Nat}
  {items : List ForkItem} {node : NodeState} {block : SignedBlock}

/-- The states that the old branch goes through when it is applied again are those that were saved
when it was applied first. -/
theorem spared_of_saved {base : List SignedBlock} {oldItems : List ForkItem}
    (coherent : Coherent skip start (oldItems.map ForkItem.data ++ base) floor node)
    (blank : start.Blank) (logging : skip.blockLog = false)
    (enough : oldItems.length ≤ node.undoStack.length) (origins : Replayed skip start base origin)
    (saves : ∀ saved ∈ node.undoStack, base.length < saved.state.dgp.headBlockNumber →
      node.headBlockNum + saved.state.dgp.lastIrreversibleBlockNum ≤
        node.blockLog.length + saved.state.dgp.headBlockNumber + 2) :
    Spared skip (base.length + oldItems.length) (node.blockLog.length + 1) origin
      (oldItems.map ForkItem.data) := by
  intro above block below state same replayed
  have whole : Replayed skip start (block :: below ++ base) state := origins.append replayed
  have length : oldItems.length = above.length + (below.length + 1) := by
    rw [← List.length_map (f := ForkItem.data), same, List.length_append, List.length_cons]
  have headNum : node.headBlockNum = oldItems.length + base.length := by
    rw [coherent.headBlockNum blank, List.length_append, List.length_map]
  have number : state.dgp.headBlockNumber = below.length + 1 + base.length := by
    rw [(whole.head blank).2.1, List.length_append, List.length_cons]
  cases above with
  | nil =>
    rw [same] at coherent
    obtain rfl : state = node.state := whole.unique coherent.history.replayed
    have irreversible := coherent.irreversible
    have logged := coherent.logged logging
    rw [List.length_nil] at length
    omega
  | cons newest above =>
    rw [List.length_cons] at length
    obtain ⟨entry, isEntry⟩ : ∃ entry, node.undoStack[above.length]? = some entry :=
      ⟨_, List.getElem?_eq_getElem (by omega)⟩
    have saved := coherent.history.replayed_of_mem isEntry
    have rest : (oldItems.map ForkItem.data ++ base).drop (above.length + 1) =
        block :: below ++ base := by
      rw [same, List.append_assoc]
      exact List.drop_left
    rw [rest] at saved
    obtain rfl := saved.unique whole
    have := saves entry (List.mem_of_getElem? isEntry) (by omega)
    omega

/-- The items of a chain above and below a fork point that is not below the log. -/
theorem Retained.split {index : Table BlockId ForkItem ForkItem.id} {base : List SignedBlock}
    {oldItems : List ForkItem}
    (retained : Retained (oldItems.map ForkItem.data ++ base) items node)
    (indexed : ∀ item ∈ items, item ∈ index) (oldIndexed : ∀ item ∈ oldItems, item ∈ index)
    (deep : node.blockLog.length ≤ base.length) :
    ∃ lower, items = oldItems ++ lower ∧ base = lower.map ForkItem.data ++ node.blockLog := by
  have length := congrArg List.length retained.whole
  rw [List.length_append, List.length_append, List.length_map, List.length_map] at length
  have whole := retained.whole
  rw [← List.take_append_drop oldItems.length items, List.map_append, List.append_assoc] at whole
  obtain ⟨upper, below⟩ := List.append_inj whole (by
    rw [List.length_map, List.length_map, List.length_take]
    omega)
  have same : oldItems = items.take oldItems.length :=
    ForkDatabase.eq_of_map_data oldIndexed
      (fun item member => indexed item (List.mem_of_mem_take member)) upper
  refine ⟨items.drop oldItems.length, ?_, below⟩
  conv_lhs => rw [← List.take_append_drop oldItems.length items, ← same]

/-- Blocks that no two have one id of make up one chain below their newest. -/
theorem Replayed.chain_unique {other : List SignedBlock} {final : ChainState}
    (replayed : Replayed skip start chain state) (second : Replayed skip start other final)
    (blank : start.Blank)
    (distinct : ∀ first ∈ pushed, ∀ second ∈ pushed, first.id = second.id → first = second)
    (inPushed : ∀ block ∈ chain, block ∈ pushed) (otherInPushed : ∀ block ∈ other, block ∈ pushed)
    (same : headId chain = headId other) : chain = other := by
  induction replayed generalizing other final with
  | start =>
    cases other with
    | nil => rfl
    | cons newest other => cases congrArg BlockId.num same
  | block earlier next applied inductionHypothesis =>
    cases second with
    | start => cases congrArg BlockId.num same
    | @block rest _ _ below newest appliedOther =>
      obtain ⟨isNext, earlierInPushed⟩ := List.forall_mem_cons.mp inPushed
      obtain ⟨isNewest, restInPushed⟩ := List.forall_mem_cons.mp otherInPushed
      obtain rfl := distinct next isNext newest isNewest same
      rw [inductionHypothesis below earlierInPushed restInPushed
        (((earlier.block next applied).previous blank).1.symm.trans
          ((below.block next appliedOther).previous blank).1)]

variable (retained : Retained chain items node) (sound : Sound skip start pushed chain floor node)
  (blank : start.Blank) (inUse : skip.forkDb = false) (logging : skip.blockLog = false)
  (distinct : ∀ first ∈ block :: pushed, ∀ second ∈ block :: pushed,
    first.id = second.id → first = second)

include retained sound blank inUse logging distinct

theorem Retained.steps_branches (high : node.headBlockNum < block.blockNum)
    (apart : block.previous ≠ node.headBlockId)
    (synced : ∀ head ∈ node.forkDb.head, head.num ≤ node.headBlockNum)
    (switch : node.CanSwitch skip block) (roomy : node.Roomy block) :
    Retained.Steps skip start (block :: pushed) chain (Node.pushBlock skip block node) := by
  obtain ⟨forkDb, taken, ⟨newItems, oldItems⟩, fetched, rooted, entry, saved, atFork, shallow⟩ :=
    switch
  obtain ⟨newHead, isBlock, isHead, isIndexed, number, same, result⟩ :=
    sound.pushBlock_of_branches blank inUse distinct high apart synced taken fetched
  obtain ⟨sameFork, deep, saves⟩ := roomy (newItems, oldItems) (by
    rw [NodeState.branchesTo, taken]
    exact congrArg Except.toOption fetched)
  obtain ⟨coherent, notHeld, members, _⟩ := sound.taken taken
  rw [← isBlock] at fetched
  obtain ⟨base, fork, popped, rfl, stands, starts, newPointing, oldIndexed, forked, enough, origins,
    replayed, atOrigin, isLog, isIndex, switching, finish, stop⟩ :=
    exists_popped coherent blank notHeld isHead isIndexed number same fetched rooted saved atFork
  rw [stands, origins.headId_num blank] at deep saves shallow
  rw [sound.coherent.numbered.logHeadNum] at deep saves
  have numbered := sound.coherent.history.replayed.numbered blank
  have indexed : ∀ item ∈ items, item ∈ forkDb.index := by
    obtain ⟨prev, rfl, _⟩ := ForkDatabase.pushBlock_eq_ok taken
    exact fun item member => ForkDatabase.mem_index_add_of_mem (retained.indexed item member)
  obtain ⟨lower, rfl, below⟩ := retained.split indexed oldIndexed deep
  -- the head of the fork database has come down to the lowest item of the new branch
  obtain ⟨top, isTop, topHead, topNum⟩ := switching.head
  have isLast : newItems.getLast? = some top := by
    obtain ⟨place, inside, rfl⟩ := List.getElem_of_mem isTop
    have level := forked.numbers place _ (List.getElem?_eq_getElem inside)
    rw [List.getLast?_eq_getElem?, show newItems.length - 1 = place by omega,
      List.getElem?_eq_getElem inside]
  have joins : ∀ item ∈ lower.head?, top.prev = some item.serial := by
    intro item isItem
    obtain ⟨oldTop, rest, isOld, _⟩ := forked.oldTop
    have oldLast := List.getLast?_eq_some_getLast (isOld ▸ List.cons_ne_nil oldTop rest)
    rw [isLast, oldLast] at sameFork
    exact (show top.prev = _ from sameFork).trans
      ((List.isChain_append.mp retained.pointing).2.2 _ oldLast item isItem)
  have lowerPointing := (List.isChain_append.mp retained.pointing).2.1
  have lowered : Lowered base lower popped :=
    ⟨isLog ▸ below, fun item member => isIndex ▸ indexed item (List.mem_append_right _ member), top,
      topHead, topNum, lowerPointing.cons joins⟩
  have oldNums : ∀ item ∈ oldItems,
      base.length < item.num ∧ item.num ≤ base.length + oldItems.length := by
    intro item member
    have isOld : item.data ∈ oldItems.map ForkItem.data := List.mem_map_of_mem member
    have most : item.num ≤ _ := numbered.num_le (List.mem_append_left _ isOld)
    rw [List.length_append, List.length_map] at most
    exact ⟨numbered.lt_num isOld, by omega⟩
  have disjoint : ∀ item ∈ oldItems, ∀ gone ∈ newItems, item.id ≠ gone.id := by
    obtain ⟨_, ⟨oldTop, oldFound, _⟩, _⟩ := ForkDatabase.fetchBranchFrom_eq_ok fetched
    have closest := ForkDatabase.closest_of_fetched coherent.linked (Table.find?_of_mem isIndexed)
      oldFound fetched
    have oldId : oldTop.id = node.headBlockId := Table.key_of_find? oldFound
    have level : newHead.num = oldTop.num + 1 := by
      rw [number, ← sound.coherent.history.replayed.headId_num blank,
        ← sound.coherent.headBlockId blank, ← oldId]
      rfl
    refine fun item isOld gone isNew sameId => closest.disjoint coherent.linked
      (ForkDatabase.mem_items.mpr (.inl isIndexed))
      (ForkDatabase.mem_items.mpr (.inl (Table.mem_of_find? oldFound))) level ?_ isNew isOld
      sameId.symm
    rw [oldId, ForkItem.previousId, isBlock]
    exact apart
  have room := spared_of_saved coherent blank logging enough origins saves
  have started : Switching skip start forkDb.index base newItems oldItems
      (newItems.drop newItems.length) floor popped := by
    rw [List.drop_length]
    exact switching
  rw [← atOrigin, ← List.take_length (l := newItems)] at shallow
  obtain ⟨finished, stopped⟩ := lowered.applyBranch started blank logging forked le_rfl shallow
    origins replayed coherent.irreversible oldIndexed oldNums disjoint
    (congrArg List.length isLog).ge room
  obtain ⟨higher, _, _, outcome⟩ := started.applyBranch blank forked le_rfl shallow origins replayed
    coherent.irreversible
  rw [result]
  rw [List.take_length] at outcome finished stopped
  have inPushed : ∀ item ∈ forkDb.index, item.data ∈ block :: pushed :=
    fun item member => members item (ForkDatabase.mem_items.mpr (.inl member))
  rcases outcome with ⟨after, run, switched⟩ | ⟨error, after, run, restored⟩
  · rw [bind_of_ok (finish after run)]
    obtain ⟨kept, ⟨rest, rfl⟩, done⟩ := finished after run
    refine ⟨newItems.map ForkItem.data ++ base, newItems ++ kept, ⟨?_, ?_, ?_, ?_⟩,
      switched.coherent.history.replayed, ?_⟩
    · rw [List.map_append, List.append_assoc]
      exact congrArg (newItems.map ForkItem.data ++ ·) done.whole
    · intro item member
      rcases List.mem_append.mp member with isNew | isLower
      · exact switched.kept item (forked.indexed item isNew) (forked.lt_num isNew).le
      · exact done.indexed item isLower
    · refine newPointing.append (List.IsChain.left_of_append lowerPointing) ?_
      intro item isItem next isNext
      obtain rfl := Option.some.inj (isLast.symm.trans isItem)
      refine joins next ?_
      obtain ⟨others, rfl⟩ := List.head?_eq_some_iff.mp isNext
      rfl
    · intro head isHead follows
      obtain ⟨_, _, atHead, headNum⟩ := switched.head
      obtain rfl := Option.some.inj (atHead.symm.trans isHead)
      have above := congrArg (fun id : BlockId => id.num + 1) follows
      change ForkItem.num _ = (headId _).num + 1 at above
      rw [switched.coherent.history.replayed.headId_num blank, List.length_append,
        List.length_map] at above
      have longer := forked.longer
      omega
    · intro other isOther
      rcases List.mem_append.mp isOther with isNew | isBase
      · obtain ⟨item, isItem, rfl⟩ := List.mem_map.mp isNew
        exact inPushed item (forked.indexed item isItem)
      · exact List.mem_cons_of_mem _ (sound.blocks other (List.mem_append_right _ isBase))
  · rw [bind_of_error (stop error after run)]
    obtain ⟨kept, ⟨rest, rfl⟩, whole, stays⟩ := stopped error after run
    refine ⟨oldItems ++ kept, ?_, stays, ?_, ?_⟩
    · rw [List.map_append, List.append_assoc]
      exact congrArg (oldItems.map ForkItem.data ++ ·) whole
    · have pointing := retained.pointing
      rw [← List.append_assoc] at pointing
      exact List.IsChain.left_of_append pointing
    · intro head isHead follows
      obtain ⟨_, isItem, atHead⟩ := restored.head
      obtain rfl := Option.some.inj (atHead.symm.trans isHead)
      refine absurd follows (previousId_ne_headId sound blank ?_)
      rw [List.length_append, List.length_map]
      rcases List.mem_append.mp isItem with isOld | isFork
      · have := (oldNums _ isOld).2
        omega
      · rw [List.mem_singleton.mp isFork, forked.forkNumber]
        exact Nat.le_add_left _ _

theorem Retained.steps (calm : node.Calm skip block)
    (roomy : block.previous ≠ node.headBlockId → node.headBlockNum < block.blockNum →
      node.Roomy block) :
    Retained.Steps skip start (block :: pushed) chain (Node.pushBlock skip block node) := by
  cases taken : node.forkDb.pushBlock block with
  | error error =>
    rw [pushBlock_of_refused inUse taken]
    exact ⟨items, retained⟩
  | ok forkDb =>
    cases calm with
    | refused error failed => cases taken.symm.trans failed
    | stored low synced => exact retained.steps_stored sound blank inUse taken low synced
    | follows previous synced reversible =>
      exact retained.steps_follows sound blank inUse logging taken previous synced reversible
    | branches high apart synced switch =>
      exact retained.steps_branches sound blank inUse logging distinct high apart synced switch
        (roomy apart high)

end

/-- A new node that has been pushed some blocks, the newest first, in calm steps that leave room for
going back from a switch. -/
inductive RoomyRun (skip : SkipFlags) (start : ChainState) : List SignedBlock → NodeState → Prop
  | opened : RoomyRun skip start [] (.opened start)
  | push {pushed : List SignedBlock} {node : NodeState} {block : SignedBlock}
      (earlier : RoomyRun skip start pushed node) (calm : node.Calm skip block)
      (roomy : block.previous ≠ node.headBlockId → node.headBlockNum < block.blockNum →
        node.Roomy block) :
      RoomyRun skip start (block :: pushed) (Node.left (Node.pushBlock skip block) node)

/-- In such a run the node keeps every block of its chain. -/
theorem RoomyRun.retained {start : ChainState} {pushed : List SignedBlock} {node : NodeState}
    (run : RoomyRun skip start pushed node) (blank : start.Blank) (inUse : skip.forkDb = false)
    (logging : skip.blockLog = false)
    (distinct : ∀ first ∈ pushed, ∀ second ∈ pushed, first.id = second.id → first = second) :
    ∃ chain floor items, Sound skip start pushed chain floor node ∧ Retained chain items node := by
  induction run with
  | opened => exact ⟨[], 0, [], sound_opened blank, retained_opened start⟩
  | @push pushed node block earlier calm roomy inductionHypothesis =>
    obtain ⟨chain, floor, items, sound, retained⟩ := inductionHypothesis
      fun first isFirst second isSecond =>
        distinct first (List.mem_cons_of_mem _ isFirst) second (List.mem_cons_of_mem _ isSecond)
    have soundStep := sound.steps blank inUse distinct calm
    have retainedStep := retained.steps sound blank inUse logging distinct calm roomy
    unfold Node.left
    cases result : Node.pushBlock skip block node with
    | ok value after =>
      rw [result] at soundStep retainedStep
      obtain ⟨longer, higher, soundAfter⟩ := soundStep
      obtain ⟨other, newItems, retainedAfter, replayed, inPushed⟩ := retainedStep
      have same : headId other = headId longer :=
        (replayed.head blank).1.symm.trans (soundAfter.coherent.headBlockId blank)
      obtain rfl := replayed.chain_unique soundAfter.coherent.history.replayed blank distinct
        inPushed soundAfter.blocks same
      exact ⟨other, higher, newItems, soundAfter, retainedAfter⟩
    | error error after =>
      rw [result] at soundStep retainedStep
      obtain ⟨_, higher, soundAfter⟩ := soundStep
      obtain ⟨newItems, retainedAfter⟩ := retainedStep
      exact ⟨chain, higher, newItems, soundAfter, retainedAfter⟩

end Zattera
