/-
This file states what holds of a node while it follows the blocks that arrive: its
state is what its chain of blocks leads to, the undo history reaches down to some
floor below which everything has been made irreversible, and the block log
reaches up to that floor. Applying a block, failing to apply one and popping
blocks keep this.
-/

import Zattera.Proof.ForkTree
import Zattera.Proof.History

namespace Zattera

open Program

/-- A node follows a chain of blocks, the newest first, down to a floor. -/
structure Coherent (skip : SkipFlags) (start : ChainState) (chain : List SignedBlock) (floor : Nat)
    (node : NodeState) : Prop where
  history : History skip start chain node.state node.undoStack
  revision : node.revision = chain.length
  irreversible : node.state.dgp.lastIrreversibleBlockNum ≤ floor
  committed : ∀ saved ∈ node.undoStack, floor < saved.revision
  numbered : Numbered node.blockLog
  logged : skip.blockLog = false → floor ≤ node.blockLog.length
  linked : node.forkDb.Linked

namespace Coherent

variable {skip : SkipFlags} {start : ChainState} {chain : List SignedBlock} {floor : Nat}
  {node : NodeState}

theorem headBlockId (coherent : Coherent skip start chain floor node) (blank : start.Blank) :
    node.headBlockId = headId chain := (coherent.history.replayed.head blank).1

theorem headBlockNum (coherent : Coherent skip start chain floor node) (blank : start.Blank) :
    node.headBlockNum = chain.length := (coherent.history.replayed.head blank).2.1

/-! ### Blocks -/

section

variable {block : SignedBlock}

theorem commit (coherent : Coherent skip start chain floor node) (blank : start.Blank) (last : Nat) :
    History skip start chain node.state (node.commit last).undoStack ∧
      ∀ saved ∈ (node.commit last).undoStack, max floor last < saved.revision := by
  have part : (node.commit last).undoStack <+: node.undoStack := List.rdropWhile_prefix _ _
  refine ⟨coherent.history.of_prefix part, fun saved member => max_lt ?_ ?_⟩
  · exact coherent.committed saved (part.subset member)
  · exact coherent.history.lt_revision_of_commit blank member

theorem length_log (coherent : Coherent skip start chain floor node) {last : Nat}
    {log : List SignedBlock} (logged : Node.Logged skip node last log)
    (logging : skip.blockLog = false) : max floor last ≤ log.length := by
  have reached := coherent.logged logging
  have length := logged.length
  rw [logging, coherent.numbered.logHeadNum, if_neg Bool.false_ne_true] at length
  omega

/-- Applying a block that makes only earlier ones irreversible. -/
theorem extended (coherent : Coherent skip start chain floor node) (blank : start.Blank)
    {state : ChainState} {log : List SignedBlock}
    (applied : applyBlock skip false block node.state = .ok () state)
    (logged : Node.Logged skip node (node.state.irreversibleWith block) log)
    (low : node.state.irreversibleWith block ≤ chain.length) (below : floor ≤ chain.length) :
    Coherent skip start (block :: chain) (max floor (node.state.irreversibleWith block))
      (node.extended block state log) := by
  have number : block.blockNum = chain.length + 1 :=
    ((coherent.history.replayed.block block applied).previous blank).2
  have stack : (node.extended block state log).undoStack = ⟨block.blockNum, node.state⟩ ::
      (node.commit (node.state.irreversibleWith block)).undoStack := by
    rw [number, ← coherent.revision]
    exact node.commit_startUndoSession (low.trans_eq coherent.revision.symm)
  obtain ⟨history, committed⟩ := coherent.commit blank (node.state.irreversibleWith block)
  refine ⟨?_, congrArg Nat.succ coherent.revision, ?_, ?_, ?_, ?_, ?_⟩
  · rw [stack]
    exact history.newer block applied
  · exact (applyBlock_irreversible applied).trans_le (le_max_right _ _)
  · rw [stack]
    refine List.forall_mem_cons.mpr ⟨?_, committed⟩
    rw [number]
    exact Nat.lt_succ_of_le (max_le below low)
  · exact logged.appended.numbered coherent.numbered
  · exact coherent.length_log logged
  · exact coherent.linked.of_pruned (ForkDatabase.pruned_setMaxSize _ _)

/-- The newest sessions are still there after a block. -/
theorem length_extended (coherent : Coherent skip start chain floor node) (blank : start.Blank)
    {state : ChainState} {log : List SignedBlock} {count : Nat}
    (enough : count ≤ node.undoStack.length)
    (low : node.state.irreversibleWith block + count ≤ chain.length) :
    count + 1 ≤ (node.extended block state log).undoStack.length := by
  have stack : (node.extended block state log).undoStack = _ :=
    node.commit_startUndoSession
      ((Nat.le_of_add_right_le low).trans_eq coherent.revision.symm)
  rw [stack]
  exact Nat.succ_le_succ (coherent.history.le_length_commit blank enough low)

/-- Failing to apply a block. -/
theorem failed (coherent : Coherent skip start chain floor node) (blank : start.Blank)
    {error : ChainError} {after : NodeState} (mild : Mild skip chain.length block node.state)
    (stopped : Node.inSession (Node.applyBlock skip block) node = .error error after) :
    after = node ∨
    Finishes (applyBlockTransactions skip false block) node.state ∧
      Coherent skip start chain floor after ∧ after.state = node.state ∧
      (∀ count ≤ node.undoStack.length, node.state.irreversibleWith block + count ≤ chain.length →
        count ≤ after.undoStack.length) ∧
      (skip.blockLog = true ∨ node.state.irreversibleWith block ≤ node.blockLog.length →
        after.blockLog = node.blockLog) ∧
      (after.forkDb = node.forkDb ∨ after.forkDb =
        node.forkDb.setMaxSize (block.blockNum - node.state.irreversibleWith block + 1)) := by
  rcases Node.inSession_applyBlock_eq_error (coherent.revision.symm ▸ mild) stopped with
    same | ⟨finishes, log, forkDb, appended, silent, _, changed, rfl⟩
  · exact .inl same
  replace changed := changed.imp id And.right
  rw [coherent.numbered.logHeadNum] at silent
  obtain ⟨history, committed⟩ := coherent.commit blank (node.state.irreversibleWith block)
  have pruned : node.forkDb.Pruned forkDb := by
    rcases changed with rfl | rfl
    · exact .refl _
    · exact ForkDatabase.pruned_setMaxSize _ _
  refine .inr ⟨finishes, ⟨history, coherent.revision, coherent.irreversible,
    fun saved member => ?_, ?_, fun logging => ?_, coherent.linked.of_pruned pruned⟩, rfl,
    fun count enough below => ?_, silent, changed⟩
  · exact (le_max_left _ _).trans_lt (committed saved member)
  · exact appended.numbered coherent.numbered
  · exact (coherent.logged logging).trans appended.suffix.length_le
  · exact coherent.history.le_length_commit blank enough below

theorem failed_pruned (coherent : Coherent skip start chain floor node) (blank : start.Blank)
    {error : ChainError} {after : NodeState} (mild : Mild skip chain.length block node.state)
    (stopped : Node.inSession (Node.applyBlock skip block) node = .error error after) :
    Coherent skip start chain floor after ∧ after.state = node.state ∧
      node.forkDb.Pruned after.forkDb := by
  rcases coherent.failed blank mild stopped with rfl | ⟨_, kept, state, _, _, same | same⟩
  · exact ⟨coherent, rfl, .refl _⟩
  · exact ⟨kept, state, same ▸ .refl _⟩
  · exact ⟨kept, state, same ▸ ForkDatabase.pruned_setMaxSize _ _⟩

end

theorem withForkDb (coherent : Coherent skip start chain floor node)
    {change : ForkDatabase → ForkDatabase} (linked : (change node.forkDb).Linked) :
    Coherent skip start chain floor (node.withForkDb change) :=
  ⟨coherent.history, coherent.revision, coherent.irreversible, coherent.committed,
    coherent.numbered, coherent.logged, linked⟩

/-! ### Popping blocks -/

section

variable {above base : List SignedBlock} {item : ForkItem} {trail : List ForkItem}

/-- The node after its newest block was popped. -/
theorem popBlock {block : SignedBlock} {prev : ForkItem}
    (coherent : Coherent skip start (block :: chain) floor node) (blank : start.Blank)
    (enough : 0 < node.undoStack.length) (isHead : node.forkDb.head = some item)
    (points : item.prev = some prev.serial)
    (held : prev ∈ node.forkDb.index ∨ prev ∈ node.forkDb.held)
    (known : (node.forkDb.index.find? block.id).isSome) :
    ∃ state,
      let popped : NodeState := { node with
        state := state
        undoStack := node.undoStack.drop 1
        revision := chain.length
        forkDb := node.forkDb.setHead (some prev) }
      Node.popBlock node = .ok () popped ∧ Coherent skip start chain floor popped := by
  obtain ⟨entry, rest, stack⟩ := List.exists_cons_of_length_pos enough
  have history := coherent.history
  rw [stack] at history
  cases history with
  | @newer _ before _ _ earlier _ applied =>
  have lower : node.undoStack.drop 1 = rest := by rw [stack]; rfl
  refine ⟨before, ?_, lower ▸ earlier, rfl, ?_, ?_, coherent.numbered, coherent.logged, ?_⟩
  · have isKnown : (node.fetchBlockById node.headBlockId).isSome := by
      rw [coherent.headBlockId blank, NodeState.fetchBlockById, ForkDatabase.fetchBlock, headId]
      cases found : node.forkDb.index.find? block.id with
      | none =>
        rw [found] at known
        cases known
      | some item => rfl
    unfold Node.popBlock
    rw [get_bind,
      bind_of_ok (require_eq_ok (u := ()).mpr ⟨isKnown, rfl⟩),
      bind_of_ok (Node.onForkDb_eq_ok (u := ()).mpr
        ⟨_, ForkDatabase.popBlock_of_points coherent.linked isHead points held, rfl⟩)]
    have length : node.revision - 1 = chain.length := congrArg Nat.pred coherent.revision
    rw [lower, ← length]
    exact modify_eq_ok.mpr (NodeState.undo_of_undoStack ⟨block.blockNum, before⟩ rest stack)
  · exact (earlier.replayed.irreversible_le blank applied).trans coherent.irreversible
  · exact fun saved member => coherent.committed saved (List.mem_of_mem_drop member)
  · exact coherent.linked.setHead held

/-- Popping blocks down to one of them. -/
theorem popBlocksTo {bound : Nat}
    (coherent : Coherent skip start (above ++ base) floor node) (blank : start.Blank)
    (enough : above.length ≤ node.undoStack.length) (isHead : node.forkDb.head = some item)
    (pointing : ForkDatabase.Pointing (item :: trail))
    (held : ∀ prev ∈ trail, prev ∈ node.forkDb.index ∨ prev ∈ node.forkDb.held)
    (long : trail.length = above.length)
    (known : ∀ block ∈ above, (node.forkDb.index.find? block.id).isSome)
    (bounded : above.length < bound) :
    ∃ state,
      let popped : NodeState := { node with
        state := state
        undoStack := node.undoStack.drop above.length
        revision := base.length
        forkDb := node.forkDb.setHead (item :: trail).getLast? }
      Node.popBlocksTo (headId base) bound node = .ok () popped ∧
        Coherent skip start base floor popped := by
  induction above generalizing node item trail bound with
  | nil =>
    obtain rfl := List.eq_nil_of_length_eq_zero long
    obtain ⟨more, rfl⟩ : ∃ more, bound = more + 1 := ⟨bound - 1, by omega⟩
    have same : node = { node with
        state := node.state
        undoStack := node.undoStack.drop 0
        revision := base.length
        forkDb := node.forkDb.setHead (some item) } := by
      rw [← isHead, ← show node.revision = base.length from coherent.revision]
      rfl
    refine ⟨node.state, ?_, same ▸ coherent⟩
    unfold Node.popBlocksTo
    have arrived : node.headBlockId = headId base := coherent.headBlockId blank
    rw [get_bind, if_neg (not_not.mpr arrived)]
    exact pure_eq_ok.mpr ⟨rfl, same⟩
  | cons block above inductionHypothesis =>
    obtain ⟨more, rfl⟩ : ∃ more, bound = more + 1 := ⟨bound - 1, by omega⟩
    obtain ⟨prev, trail, rfl⟩ : ∃ prev rest, trail = prev :: rest :=
      List.exists_cons_of_length_eq_add_one long
    obtain ⟨points, pointing⟩ := List.isChain_cons_cons.mp pointing
    obtain ⟨prevHeld, held⟩ := List.forall_mem_cons.mp held
    obtain ⟨blockKnown, known⟩ := List.forall_mem_cons.mp known
    have above : node.headBlockId ≠ headId base := by
      rw [coherent.headBlockId blank]
      exact coherent.history.replayed.id_ne_headId blank
    obtain ⟨state, popped, lower⟩ := coherent.popBlock blank (Nat.zero_lt_of_lt enough) isHead
      points prevHeld blockKnown
    obtain ⟨final, looped, last⟩ := inductionHypothesis lower
      (by rw [List.length_drop]; exact Nat.le_sub_of_add_le enough) rfl pointing held
      (Nat.succ.inj long) known (Nat.lt_of_succ_lt_succ bounded)
    rw [List.drop_drop, Nat.add_comm 1] at looped last
    refine ⟨final, ?_, last⟩
    unfold Node.popBlocksTo
    rw [get_bind, if_pos above, bind_of_ok popped]
    exact looped

end

/-! ### Applying blocks again -/

end Coherent

/-- An item with a number is not too old for a fork database whose head has another one, while some
blocks, the newest first, are applied. -/
def Spared (skip : SkipFlags) (top number : Nat) (origin : ChainState) (blocks : List SignedBlock) :
    Prop :=
  ∀ above block below state, blocks = above ++ block :: below →
    Replayed skip origin (block :: below) state →
    top + state.dgp.lastIrreversibleBlockNum ≤ number + state.dgp.headBlockNumber + 1

namespace Coherent

variable {skip : SkipFlags} {start : ChainState} {chain : List SignedBlock} {floor : Nat}
  {node : NodeState}

/-- Blocks that lead to a state where nothing is irreversible beyond the floor can be applied
again. -/
theorem reapplied {items : List ForkItem} {final : ChainState}
    (coherent : Coherent skip start chain floor node) (blank : start.Blank)
    (below : floor ≤ chain.length)
    (replayed : Replayed skip node.state (items.map ForkItem.data) final)
    (low : final.dgp.lastIrreversibleBlockNum ≤ floor) :
    ∃ after,
      forM items.reverse (fun item => Node.inSession (Node.applyBlock skip item.data)) node =
        .ok () after ∧
      Coherent skip start (items.map ForkItem.data ++ chain) floor after ∧ after.state = final ∧
      after.blockLog = node.blockLog ∧ node.forkDb.Pruned after.forkDb ∧
      (∀ item ∈ node.forkDb.index, (∀ head ∈ node.forkDb.head,
        Spared skip head.num item.num node.state (items.map ForkItem.data)) →
          item ∈ after.forkDb.index) ∧
      (items = [] ∨ after.forkDb.maxSize =
        final.dgp.headBlockNumber - final.dgp.lastIrreversibleBlockNum + 1) := by
  induction items generalizing final with
  | nil =>
    cases replayed
    exact ⟨node, rfl, coherent, rfl, rfl, .refl _, fun _ member _ => member, .inl rfl⟩
  | cons item items inductionHypothesis =>
    have whole := replayed
    rw [List.map_cons] at replayed
    cases replayed with
    | @block _ before _ earlier _ applied =>
    have along := coherent.history.replayed.append earlier
    have lower := (along.irreversible_le blank applied).trans low
    obtain ⟨middle, looped, middleCoherent, rfl, log, pruned, spared, _⟩ :=
      inductionHypothesis earlier lower
    have irreversible := applyBlock_irreversible applied
    have number := (applyBlock_head applied).2.2
    have last : middle.state.irreversibleWith item.data ≤ floor := irreversible.symm.trans_le low
    have logged : Node.Logged skip middle (middle.state.irreversibleWith item.data)
        middle.blockLog := by
      refine ⟨.none, ?_⟩
      cases silent : skip.blockLog with
      | true => rfl
      | false =>
        have reached := middleCoherent.logged silent
        rw [if_neg Bool.false_ne_true, middleCoherent.numbered.logHeadNum]
        omega
    have long : floor ≤ (items.map ForkItem.data ++ chain).length := by
      rw [List.length_append]
      omega
    have next := middleCoherent.extended blank applied logged (last.trans long) long
    rw [max_eq_left last] at next
    refine ⟨_, ?_, next, rfl, log, pruned.trans (ForkDatabase.pruned_setMaxSize _ _), ?_, .inr ?_⟩
    · rw [List.reverse_cons, List.forM_append, bind_of_ok looped, List.forM_cons,
        bind_of_ok (Node.inSession_applyBlock_eq_ok (u := ()).mpr ⟨final, _, applied, logged, rfl⟩)]
      rfl
    · intro other member isSpared
      refine ForkDatabase.mem_index_setMaxSize (spared other member fun head isHead => ?_)
        fun head isHead => ?_
      · intro above block below state same
        exact isSpared head isHead (item.data :: above) block below state
          (congrArg (item.data :: ·) same)
      · have room := isSpared head (pruned.head.symm.trans isHead) [] item.data _ final rfl whole
        rw [number, irreversible] at room
        omega
    · rw [number, irreversible]
      exact ForkDatabase.maxSize_setMaxSize _ _

end Coherent

end Zattera
