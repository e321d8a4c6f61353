/-
This file shows when `push_block` keeps its promise that a block that cannot be
pushed leaves the state of the chain as it was: when the head of the fork
database has not run ahead of the chain, and a switch to another fork starts from
a fork point that can be gone back to. Runs of such steps keep the node following
a chain of blocks.
-/

import Zattera.Proof.Duplicates
import Zattera.Proof.Switching

namespace Zattera

open Program

variable {forkDb : ForkDatabase} {newHead : ForkItem}

/-! ### Steps -/

/-- The node can go to the branch of a block and back: the fork point is in the undo history and in
the fork database, and the branch makes nothing above the fork point irreversible. -/
def NodeState.CanSwitch (node : NodeState) (skip : SkipFlags) (block : SignedBlock) : Prop :=
  ∃ forkDb, node.forkDb.pushBlock block = .ok forkDb ∧
    ∃ branches, forkDb.fetchBranchFrom block.id node.headBlockId = .ok branches ∧
      (∃ fork ∈ forkDb.index.objects, branches.2.getLast?.bind ForkItem.prev = some fork.serial) ∧
      ∃ entry ∈ node.undoStack, entry.state.dgp.headBlockId = forkPoint branches.2 ∧
        Shallow skip (forkPoint branches.2).num (branches.1.reverse.map ForkItem.data) entry.state

instance (node : NodeState) (skip : SkipFlags) (block : SignedBlock) :
    Decidable (node.CanSwitch skip block) := by
  unfold NodeState.CanSwitch
  infer_instance

/-- A block that a node can take, or refuse, without losing its way. -/
inductive NodeState.Calm (node : NodeState) (skip : SkipFlags) (block : SignedBlock) : Prop
  /-- The fork database refuses the block. -/
  | refused (error : ChainError) (failed : node.forkDb.pushBlock block = .error error)
  /-- The block is not higher than the chain. -/
  | stored (low : block.blockNum ≤ node.headBlockNum)
      (synced : ∀ head ∈ node.forkDb.head, head.num ≤ node.headBlockNum)
  /-- The block follows the head block, and does not make itself irreversible. -/
  | follows (previous : block.previous = node.headBlockId)
      (synced : ∀ head ∈ node.forkDb.head,
        head.num ≤ node.headBlockNum ∨ head.previousId = node.headBlockId)
      (reversible : node.state.irreversibleWith block < block.blockNum)
  /-- The block is the highest of a branch that the node can switch to. -/
  | branches (high : node.headBlockNum < block.blockNum) (apart : block.previous ≠ node.headBlockId)
      (synced : ∀ head ∈ node.forkDb.head, head.num ≤ node.headBlockNum)
      (switch : node.CanSwitch skip block)

/-- A node between two blocks, with the blocks that were pushed so far. -/
structure Sound (skip : SkipFlags) (start : ChainState) (pushed chain : List SignedBlock)
    (floor : Nat) (node : NodeState) : Prop where
  coherent : Coherent skip start chain floor node
  below : floor ≤ chain.length
  low : ∀ item ∈ node.forkDb.index, item.num ≤ chain.length
  notHeld : node.forkDb.held = []
  started : node.forkDb.head = none → chain = []
  items : ∀ item ∈ node.forkDb.items, item.data ∈ pushed
  blocks : ∀ block ∈ chain, block ∈ pushed

section

variable {skip : SkipFlags} {start : ChainState} {pushed chain : List SignedBlock} {floor : Nat}
  {node : NodeState} {block : SignedBlock}

theorem sound_opened (blank : start.Blank) : Sound skip start [] [] 0 (.opened start) where
  coherent := ⟨.oldest .start, rfl, blank.irreversible.le, nofun, trivial, fun _ => Nat.zero_le _,
    ⟨nofun, nofun, nofun, nofun⟩⟩
  below := le_rfl
  low := nofun
  notHeld := rfl
  started _ := rfl
  items := nofun
  blocks := nofun

/-- What the head of the fork database is once it has taken a block. -/
theorem ForkDatabase.head_add (forkDb : ForkDatabase) (prev : Option Nat) (block : SignedBlock) :
    ∃ newHead, (forkDb.add prev block).head = some newHead ∧
      (newHead = ⟨forkDb.nextSerial, prev, block⟩ ∨
        forkDb.head = some newHead ∧ block.blockNum ≤ newHead.num) := by
  cases isHead : forkDb.head with
  | none =>
    refine ⟨_, ?_, .inl rfl⟩
    simp only [ForkDatabase.add, isHead]
  | some head =>
    by_cases lower : head.num < block.blockNum
    · refine ⟨_, ?_, .inl rfl⟩
      simp only [ForkDatabase.add, isHead]
      exact congrArg some (if_pos lower)
    · refine ⟨head, ?_, .inr ⟨rfl, Nat.le_of_not_lt lower⟩⟩
      simp only [ForkDatabase.add, isHead]
      exact congrArg some (if_neg lower)

/-- The node after the fork database has taken a block. -/
theorem Sound.taken (sound : Sound skip start pushed chain floor node)
    (taken : node.forkDb.pushBlock block = .ok forkDb) :
    Coherent skip start chain floor { node with forkDb := forkDb } ∧ forkDb.held = [] ∧
      (∀ item ∈ forkDb.items, item.data ∈ block :: pushed) ∧
      ∀ item ∈ forkDb.index, item ∈ node.forkDb.index ∨ item.data = block := by
  have linked := sound.coherent.linked.pushBlock taken
  obtain ⟨prev, rfl, _⟩ := ForkDatabase.pushBlock_eq_ok taken
  have coherent : Coherent skip start chain floor
      (node.withForkDb fun _ => node.forkDb.add prev block) := sound.coherent.withForkDb linked
  refine ⟨coherent, sound.notHeld, ?_, ?_⟩
  · intro item member
    rcases ForkDatabase.mem_items_add member with older | rfl
    · exact List.mem_cons_of_mem _ (sound.items item older)
    · exact List.mem_cons_self
  · intro item member
    exact (ForkDatabase.mem_index_add member).imp id fun isNew => congrArg ForkItem.data isNew

theorem pushBlock_of_refused {error : ChainError} (inUse : skip.forkDb = false)
    (refused : node.forkDb.pushBlock block = .error error) :
    Node.pushBlock skip block node = .error error node := by
  unfold Node.pushBlock
  rw [inUse]
  exact bind_of_error (Node.onForkDb_eq_error.mpr ⟨refused, rfl⟩)

theorem pushBlock_of_taken (inUse : skip.forkDb = false)
    (taken : node.forkDb.pushBlock block = .ok forkDb) (isHead : forkDb.head = some newHead) :
    Node.pushBlock skip block node =
      Node.followHead skip block newHead { node with forkDb := forkDb } := by
  unfold Node.pushBlock
  rw [inUse, if_neg Bool.false_ne_true,
    bind_of_ok (Node.onForkDb_eq_ok (u := ()).mpr ⟨forkDb, taken, rfl⟩), get_bind]
  simp only [isHead]

theorem followHead_of_follows (same : newHead.previousId = node.headBlockId) :
    Node.followHead skip block newHead node =
      (do Node.extendHead skip block; return false : Node Bool) node := by
  rw [Node.followHead, get_bind, if_pos same]

theorem followHead_of_low (apart : newHead.previousId ≠ node.headBlockId)
    (low : newHead.num ≤ node.headBlockNum) :
    Node.followHead skip block newHead node = .ok false node := by
  rw [Node.followHead, get_bind, if_neg apart, if_neg (Nat.not_lt.mpr low)]
  rfl

theorem followHead_of_high (apart : newHead.previousId ≠ node.headBlockId)
    (high : node.headBlockNum < newHead.num) :
    Node.followHead skip block newHead node =
      (do Node.switchFork skip newHead; return true : Node Bool) node := by
  rw [Node.followHead, get_bind, if_neg apart, if_pos high]

/-- A step from a sound node to a sound node, in which a failure leaves the state alone. -/
def Sound.Steps (skip : SkipFlags) (start : ChainState) (pushed chain : List SignedBlock)
    (node : NodeState) : EStateM.Result ChainError NodeState Bool → Prop
  | .ok _ after => ∃ longer floor, Sound skip start pushed longer floor after
  | .error _ after => after.state = node.state ∧
      ∃ floor, Sound skip start pushed chain floor after

theorem Sound.steps_refused (sound : Sound skip start pushed chain floor node) (error : ChainError) :
    Sound.Steps skip start (block :: pushed) chain node (.error error node) :=
  ⟨rfl, floor, sound.coherent, sound.below, sound.low, sound.notHeld, sound.started,
    fun item member => List.mem_cons_of_mem _ (sound.items item member),
    fun block member => List.mem_cons_of_mem _ (sound.blocks block member)⟩

theorem Replayed.headId_num {state : ChainState}
    (replayed : Replayed skip start chain state) (blank : start.Blank) :
    (headId chain).num = chain.length :=
  (replayed.head blank).2.2

variable (sound : Sound skip start pushed chain floor node) (blank : start.Blank)

include sound blank

/-- A head that is not above the chain does not follow its newest block. -/
theorem previousId_ne_headId {head : ForkItem} (low : head.num ≤ chain.length) :
    head.previousId ≠ headId chain := by
  intro same
  have number : head.num = (headId chain).num + 1 :=
    congrArg (fun id : BlockId => id.num + 1) same
  rw [sound.coherent.history.replayed.headId_num blank] at number
  omega

variable (inUse : skip.forkDb = false)

include inUse

/-- A block that is not higher than the chain is only stored. -/
theorem Sound.pushBlock_of_stored
    (taken : node.forkDb.pushBlock block = .ok forkDb) (low : block.blockNum ≤ node.headBlockNum)
    (synced : ∀ head ∈ node.forkDb.head, head.num ≤ node.headBlockNum) :
    Node.pushBlock skip block node = .ok false { node with forkDb := forkDb } := by
  obtain ⟨prev, rfl, _⟩ := ForkDatabase.pushBlock_eq_ok taken
  obtain ⟨newHead, isHead, origin⟩ := node.forkDb.head_add prev block
  have number : newHead.num ≤ node.headBlockNum := by
    rcases origin with rfl | ⟨older, _⟩
    · exact low
    · exact synced newHead older
  have apart : newHead.previousId ≠ node.headBlockId := by
    rw [sound.coherent.headBlockId blank]
    exact previousId_ne_headId sound blank (number.trans_eq (sound.coherent.headBlockNum blank))
  exact (pushBlock_of_taken inUse taken isHead).trans (followHead_of_low apart number)

theorem Sound.steps_stored (taken : node.forkDb.pushBlock block = .ok forkDb)
    (low : block.blockNum ≤ node.headBlockNum)
    (synced : ∀ head ∈ node.forkDb.head, head.num ≤ node.headBlockNum) :
    Sound.Steps skip start (block :: pushed) chain node (Node.pushBlock skip block node) := by
  rw [sound.pushBlock_of_stored blank inUse taken low synced]
  obtain ⟨coherent, notHeld, items, indexed⟩ := sound.taken taken
  obtain ⟨prev, rfl, _⟩ := ForkDatabase.pushBlock_eq_ok taken
  obtain ⟨newHead, isHead, _⟩ := node.forkDb.head_add prev block
  refine ⟨chain, floor, coherent, sound.below, fun item member => ?_, notHeld, ?_, items,
    fun block member => List.mem_cons_of_mem _ (sound.blocks block member)⟩
  · rcases indexed item member with older | isNew
    · exact sound.low item older
    · rw [ForkItem.num, isNew, ← sound.coherent.headBlockNum blank]
      exact low
  · intro none
    cases isHead.symm.trans none

theorem Sound.steps_follows (taken : node.forkDb.pushBlock block = .ok forkDb)
    (previous : block.previous = node.headBlockId) (synced : ∀ head, node.forkDb.head = some head →
      head.num ≤ node.headBlockNum ∨ head.previousId = node.headBlockId)
    (reversible : node.state.irreversibleWith block < block.blockNum) :
    Sound.Steps skip start (block :: pushed) chain node (Node.pushBlock skip block node) := by
  obtain ⟨coherent, notHeld, items, indexed⟩ := sound.taken taken
  obtain ⟨prev, rfl, _⟩ := ForkDatabase.pushBlock_eq_ok taken
  obtain ⟨newHead, isHead, origin⟩ := node.forkDb.head_add prev block
  have number : block.blockNum = chain.length + 1 := by
    rw [SignedBlock.blockNum, previous, sound.coherent.headBlockId blank,
      (sound.coherent.history.replayed.head blank).2.2]
  have follows : newHead.previousId = node.headBlockId := by
    rcases origin with rfl | ⟨older, high⟩
    · exact previous
    · refine (synced newHead older).resolve_left fun low => ?_
      rw [sound.coherent.headBlockNum blank] at low
      omega
  have low : node.state.irreversibleWith block ≤ chain.length := by omega
  have blocks : ∀ other ∈ chain, other ∈ block :: pushed :=
    fun other member => List.mem_cons_of_mem _ (sound.blocks other member)
  rw [(pushBlock_of_taken inUse taken isHead).trans (followHead_of_follows follows)]
  unfold Node.extendHead
  cases run : Node.inSession (Node.applyBlock skip block)
      { node with forkDb := node.forkDb.add prev block } with
  | ok _ after =>
    obtain ⟨state, log, applied, logged, rfl⟩ := Node.inSession_applyBlock_eq_ok.mp run
    rw [bind_of_ok (Node.onFailure_eq_ok.mpr run)]
    have pruned := ForkDatabase.pruned_setMaxSize (node.forkDb.add prev block)
      (block.blockNum - node.state.irreversibleWith block + 1)
    refine ⟨block :: chain, _, coherent.extended blank applied logged low sound.below, ?_, ?_,
      pruned.held.trans notHeld, ?_, ?_, List.forall_mem_cons.mpr ⟨List.mem_cons_self, blocks⟩⟩
    · exact max_le (sound.below.trans (Nat.le_succ _)) (low.trans (Nat.le_succ _))
    · intro item member
      rcases indexed item (pruned.index item member) with older | isNew
      · exact (sound.low item older).trans (Nat.le_succ _)
      · rw [ForkItem.num, isNew, number]
        rfl
    · intro none
      cases isHead.symm.trans (pruned.head.symm.trans none)
    · exact fun item member => items item (pruned.items_subset member)
  | error error after =>
    obtain ⟨failed, state, pruned⟩ := coherent.failed_pruned blank (fun _ => low) run
    have removed := pruned.trans (after.forkDb.pruned_remove block.id)
    have kept : Coherent skip start chain floor
        (after.withForkDb fun forkDb => forkDb.remove block.id) :=
      failed.withForkDb (failed.linked.of_pruned (after.forkDb.pruned_remove block.id))
    rw [bind_of_error (Node.onFailure_modify run)]
    refine ⟨state, floor, kept, sound.below, ?_, removed.held.trans notHeld, ?_, ?_, blocks⟩
    · intro item member
      have other : item.id ≠ block.id := (Table.mem_erase.mp member).2
      rcases indexed item (removed.index item member) with older | isNew
      · exact sound.low item older
      · exact absurd (congrArg SignedBlock.id isNew) other
    · intro none
      cases isHead.symm.trans (removed.head.symm.trans none)
    · exact fun item member => items item (removed.items_subset member)

omit inUse in
/-- A block above the chain that the fork database can follow down to it is one higher. -/
theorem Sound.num_of_high {prev : Option Nat} {newItems oldItems : List ForkItem}
    (high : node.headBlockNum < block.blockNum) (apart : block.previous ≠ node.headBlockId)
    (taken : node.forkDb.pushBlock block = .ok (node.forkDb.add prev block))
    (fetched : (node.forkDb.add prev block).fetchBranchFrom block.id node.headBlockId =
      .ok (newItems, oldItems)) :
    block.blockNum = chain.length + 1 := by
  rw [sound.coherent.headBlockNum blank] at high
  rw [sound.coherent.headBlockId blank] at apart fetched
  obtain ⟨_, _, ⟨_, absent | first⟩ | ⟨parent, found, _⟩⟩ := ForkDatabase.pushBlock_eq_ok taken
  · obtain ⟨_, ⟨item, isHead, _⟩, _⟩ := ForkDatabase.fetchBranchFrom_eq_ok fetched
    have id : item.id = headId chain := Table.key_of_find? isHead
    rw [sound.started absent] at id
    cases congrArg BlockId.num id
  · rw [SignedBlock.blockNum, first] at high
    obtain rfl := List.eq_nil_of_length_eq_zero (Nat.lt_one_iff.mp high)
    exact absurd first apart
  · have lower := sound.low parent (Table.mem_of_find? found)
    have number : block.blockNum = parent.num + 1 :=
      (congrArg (fun id : BlockId => id.num + 1) (Table.key_of_find? found)).symm
    omega

variable (distinct : ∀ first ∈ block :: pushed, ∀ second ∈ block :: pushed,
  first.id = second.id → first = second)

include distinct

/-- What a block that makes the node switch has to do with the fork database. -/
theorem Sound.pushBlock_of_branches (high : node.headBlockNum < block.blockNum)
    (apart : block.previous ≠ node.headBlockId)
    (synced : ∀ head ∈ node.forkDb.head, head.num ≤ node.headBlockNum)
    (taken : node.forkDb.pushBlock block = .ok forkDb) {newItems oldItems : List ForkItem}
    (fetched : forkDb.fetchBranchFrom block.id node.headBlockId = .ok (newItems, oldItems)) :
    ∃ newHead, newHead.data = block ∧ forkDb.head = some newHead ∧ newHead ∈ forkDb.index ∧
      newHead.num = chain.length + 1 ∧
      (∀ item ∈ forkDb.items, ∀ other ∈ chain, item.id = other.id → item.data = other) ∧
      Node.pushBlock skip block node = (do
        Node.switchFork skip newHead
        return true) { node with forkDb := forkDb } := by
  obtain ⟨_, _, items, _⟩ := sound.taken taken
  obtain ⟨prev, rfl, _⟩ := ForkDatabase.pushBlock_eq_ok taken
  have number := sound.num_of_high blank high apart taken fetched
  have fresh : node.forkDb.index.find? block.id = none := by
    refine Table.find?_eq_none_iff.mpr fun item member same => ?_
    have equal : item.num = block.blockNum := congrArg BlockId.num same
    have := sound.low item member
    omega
  obtain ⟨newHead, isHead, origin⟩ := node.forkDb.head_add prev block
  obtain rfl : newHead = ⟨node.forkDb.nextSerial, prev, block⟩ := by
    refine origin.resolve_right fun ⟨older, above⟩ => ?_
    exact absurd (synced newHead older) (Nat.not_le.mpr (high.trans_le above))
  refine ⟨_, rfl, isHead, ForkDatabase.mem_index_add_self fresh, number, ?_, ?_⟩
  · exact fun item member other isOther => distinct item.data (items item member) other
      (List.mem_cons_of_mem _ (sound.blocks other isOther))
  · exact (pushBlock_of_taken inUse taken isHead).trans (followHead_of_high apart high)

theorem Sound.steps_branches (high : node.headBlockNum < block.blockNum)
    (apart : block.previous ≠ node.headBlockId)
    (synced : ∀ head ∈ node.forkDb.head, head.num ≤ node.headBlockNum)
    (switch : node.CanSwitch skip block) :
    Sound.Steps skip start (block :: pushed) chain node (Node.pushBlock skip block node) := by
  obtain ⟨forkDb, taken, ⟨newItems, oldItems⟩, fetched, rooted, entry, saved, atFork, shallow⟩ :=
    switch
  obtain ⟨newHead, isBlock, isHead, isIndexed, number, same, result⟩ :=
    sound.pushBlock_of_branches blank inUse distinct high apart synced taken fetched
  obtain ⟨coherent, notHeld, items, indexed⟩ := sound.taken taken
  rw [← isBlock] at fetched
  obtain ⟨base, fork, higher, above, below, rfl, starts, oldIndexed, forked, outcome⟩ :=
    switchFork_cases coherent blank notHeld isHead isIndexed number same fetched rooted saved atFork
      shallow
  have member : ∀ item ∈ forkDb.index, item.data ∈ block :: pushed :=
    fun item isItem => items item (ForkDatabase.mem_items.mpr (.inl isItem))
  have blockNum : block.blockNum = _ := (congrArg SignedBlock.blockNum isBlock.symm).trans number
  rw [result]
  rcases outcome with ⟨after, run, switched⟩ | ⟨error, after, run, restored⟩
  · rw [bind_of_ok run]
    have length : (newItems.map ForkItem.data ++ base).length = newItems.length + base.length := by
      rw [List.length_append, List.length_map]
    have longer := forked.longer
    have oldLength : (oldItems.map ForkItem.data ++ base).length = oldItems.length + base.length := by
      rw [List.length_append, List.length_map]
    obtain ⟨top, topMember, topHead, _⟩ := switched.head
    refine ⟨_, higher, switched.coherent.released, by omega, ?_, rfl, ?_, ?_, ?_⟩
    · intro item isItem
      rcases indexed item (switched.indexed item isItem) with older | isNew
      · have := sound.low item older
        omega
      · rw [ForkItem.num, isNew]
        omega
    · intro none
      cases topHead.symm.trans none
    · intro item isItem
      rcases ForkDatabase.mem_items.mp isItem with isIndexed | isHead | isHeld
      · exact member item (switched.indexed item isIndexed)
      · obtain rfl := Option.some.inj (topHead.symm.trans isHead)
        exact member top (forked.indexed top topMember)
      · cases isHeld
    · intro other isOther
      rcases List.mem_append.mp isOther with isNew | isBase
      · obtain ⟨item, isItem, rfl⟩ := List.mem_map.mp isNew
        exact member item (forked.indexed item isItem)
      · exact List.mem_cons_of_mem _ (sound.blocks other (List.mem_append_right _ isBase))
  · rw [bind_of_error run]
    obtain ⟨top, isTop, topHead⟩ := restored.head
    have topIndexed : top ∈ forkDb.index := by
      rcases List.mem_append.mp isTop with isOld | isFork
      · exact oldIndexed top isOld
      · rw [List.mem_singleton] at isFork
        exact isFork ▸ forked.forkIndexed
    refine ⟨restored.state, higher, restored.coherent.released, ?_, ?_, rfl, ?_, ?_, ?_⟩
    · rw [List.length_append]
      omega
    · intro item isItem
      obtain ⟨isIndexed, notTip⟩ := restored.indexed item isItem
      rcases indexed item isIndexed with older | isNew
      · exact sound.low item older
      · refine absurd ?_ notTip
        rw [starts]
        exact congrArg (fun block : SignedBlock => some block.id) (isBlock.trans isNew.symm)
    · intro none
      cases topHead.symm.trans none
    · intro item isItem
      rcases ForkDatabase.mem_items.mp isItem with isIndexed | isHead | isHeld
      · exact member item (restored.indexed item isIndexed).1
      · obtain rfl := Option.some.inj (topHead.symm.trans isHead)
        exact member top topIndexed
      · cases isHeld
    · exact fun other isOther => List.mem_cons_of_mem _ (sound.blocks other isOther)

/-- A calm step leads from a sound node to a sound node, and leaves the state alone when it fails. -/
theorem Sound.steps (calm : node.Calm skip block) :
    Sound.Steps skip start (block :: pushed) chain node (Node.pushBlock skip block node) := by
  cases taken : node.forkDb.pushBlock block with
  | error error =>
    rw [pushBlock_of_refused inUse taken]
    exact sound.steps_refused error
  | ok forkDb =>
    cases calm with
    | refused error failed => cases taken.symm.trans failed
    | stored low synced => exact sound.steps_stored blank inUse taken low synced
    | follows previous synced reversible =>
      exact sound.steps_follows blank inUse taken previous synced reversible
    | branches high apart synced switch =>
      exact sound.steps_branches blank inUse distinct high apart synced switch

end

/-! ### Runs -/

/-- A new node that has been pushed some blocks, the newest first, in calm steps. -/
inductive CalmRun (skip : SkipFlags) (start : ChainState) : List SignedBlock → NodeState → Prop
  | opened : CalmRun skip start [] (.opened start)
  | push {pushed : List SignedBlock} {node : NodeState} {block : SignedBlock}
      (earlier : CalmRun skip start pushed node) (calm : node.Calm skip block) :
      CalmRun skip start (block :: pushed) (Node.left (Node.pushBlock skip block) node)

section

variable {skip : SkipFlags} {start : ChainState} {pushed : List SignedBlock} {node : NodeState}

theorem Sound.Steps.left {chain : List SignedBlock} {x : Node Bool}
    (steps : Sound.Steps skip start pushed chain node (x node)) :
    ∃ chain floor, Sound skip start pushed chain floor (Node.left x node) := by
  unfold Node.left
  cases run : x node with
  | ok value after =>
    rw [run] at steps
    exact steps
  | error error after =>
    rw [run] at steps
    exact ⟨chain, steps.2⟩

theorem CalmRun.sound (blank : start.Blank) (inUse : skip.forkDb = false)
    (run : CalmRun skip start pushed node)
    (distinct : ∀ first ∈ pushed, ∀ second ∈ pushed, first.id = second.id → first = second) :
    ∃ chain floor, Sound skip start pushed chain floor node := by
  induction run with
  | opened => exact ⟨[], 0, sound_opened blank⟩
  | push earlier calm inductionHypothesis =>
    obtain ⟨chain, floor, sound⟩ := inductionHypothesis fun first isFirst second isSecond =>
      distinct first (List.mem_cons_of_mem _ isFirst) second (List.mem_cons_of_mem _ isSecond)
    exact (sound.steps blank inUse distinct calm).left

/-- In a run of calm steps of a node that uses its fork database, a block that cannot be pushed leaves
the head block and the state of the chain as they were. No two of the pushed blocks have one id. -/
theorem pushBlock_unwinds {block : SignedBlock} {error : ChainError} {after : NodeState}
    (blank : start.Blank) (inUse : skip.forkDb = false) (run : CalmRun skip start pushed node)
    (distinct : ∀ first ∈ block :: pushed, ∀ second ∈ block :: pushed,
      first.id = second.id → first = second)
    (calm : node.Calm skip block)
    (failed : Node.pushBlock skip block node = .error error after) :
    after.headBlockId = node.headBlockId ∧ after.state = node.state := by
  obtain ⟨chain, floor, sound⟩ := run.sound blank inUse fun first isFirst second isSecond =>
    distinct first (List.mem_cons_of_mem _ isFirst) second (List.mem_cons_of_mem _ isSecond)
  have steps := sound.steps blank inUse distinct calm
  rw [failed] at steps
  obtain ⟨same, _⟩ := steps
  exact ⟨congrArg (fun state => state.dgp.headBlockId) same, same⟩

end

/-! ### Two forks of two blocks -/

/-- A block like another one, with its own id. -/
def SignedBlock.twin (block : SignedBlock) : SignedBlock := { block with hash := block.hash + 1 }

/-- A block with a wrong Merkle root. -/
def SignedBlock.spoiled (block : SignedBlock) : SignedBlock :=
  { block with transactionMerkleRoot := block.transactionMerkleRoot + 1 }

/-- Two first blocks, and two blocks on top of the first one. -/
def forkRoot : SignedBlock := genesisBlock default []

def forkLeft : SignedBlock := genesisBlock forkRoot.id []

/-- A new node that has been pushed a block and two blocks on top of it. -/
def nodeForked : NodeState :=
  Node.left (Node.pushBlock {} forkLeft.twin) (Node.left (Node.pushBlock {} forkLeft)
    (Node.left (Node.pushBlock {} forkRoot) (.opened genesis)))

/-- A spoiled block on top of the second fork. -/
def forkTip : SignedBlock := (genesisBlock forkLeft.twin.id []).spoiled

theorem calmRun_nodeForked : CalmRun {} genesis [forkLeft.twin, forkLeft, forkRoot] nodeForked := by
  unfold nodeForked
  refine .push (.push (.push .opened (.follows ?_ ?_ ?_)) (.follows ?_ ?_ ?_)) (.stored ?_ ?_)
  all_goals decide +kernel

/-- The node goes to the second fork and back when its tip fails. -/
theorem forkTip_unwinds :
    ∃ error after, Node.pushBlock {} forkTip nodeForked = .error error after ∧
      after.headBlockId = forkLeft.id ∧ after.state = nodeForked.state := by
  have calm : nodeForked.Calm {} forkTip := by
    refine .branches ?_ ?_ ?_ ?_
    all_goals decide +kernel
  have stops : ¬ Finishes (Node.pushBlock {} forkTip) nodeForked := by decide +kernel
  cases run : Node.pushBlock {} forkTip nodeForked with
  | ok value after => exact absurd ⟨value, after, run⟩ stops
  | error error after =>
    obtain ⟨head, state⟩ := pushBlock_unwinds (blank_initGenesis _ _) rfl calmRun_nodeForked
      (by decide +kernel) calm run
    exact ⟨error, after, rfl, head.trans (by decide +kernel), state⟩

/-- A new node whose first block has a twin, with a spoiled block on top of the twin, ends up with the
twin. -/
theorem rootTwin_stays :
    let twin := forkRoot.twin
    let node := (NodeState.opened genesis).fed {} [forkRoot, twin]
    let tip := (genesisBlock twin.id []).spoiled
    node.headBlockId = forkRoot.id ∧ ¬ Finishes (Node.pushBlock {} tip) node ∧
      (Node.left (Node.pushBlock {} tip) node).headBlockId = twin.id ∧ twin.id ≠ forkRoot.id := by
  decide +kernel

end Zattera
