/-
This file shows what a block that cannot be applied leaves behind. The step for
irreversibility discards undo history and writes the block log in the middle of a
block, so a block that fails after it has changed what no session can restore,
unless there was nothing for that step to do.
-/

import Zattera.Proof.Duplicates
import Zattera.Proof.NodeRuns

namespace Zattera

open Program

/-- The block makes nothing irreversible that was not: no session is discarded, the one the block is
applied in included, and the log has no block to come. -/
def NodeState.Settled (node : NodeState) (skip : SkipFlags) (block : SignedBlock) : Prop :=
  (node.startUndoSession.commit (node.state.irreversibleWith block)).undoStack =
      node.startUndoSession.undoStack ∧
    (skip.blockLog = true ∨ node.state.irreversibleWith block ≤ node.logHeadNum)

/-- A block that fails leaves the block log and the undo history alone, and undoing the session it is
applied in gives the state before it. -/
def NodeState.Unharmed (node : NodeState) (skip : SkipFlags) (block : SignedBlock) : Prop :=
  ∀ error after, Node.applyBlock skip block node.startUndoSession = .error error after →
    after.blockLog = node.blockLog ∧ after.undoStack = node.startUndoSession.undoStack ∧
      after.undo.state = node.state

/-- The block fails in a step that follows the one for irreversibility. -/
def NodeState.FailsLate (node : NodeState) (skip : SkipFlags) (block : SignedBlock) : Prop :=
  ∃ first second error after,
    Node.onChain (applyBlockTransactions skip false block) node.startUndoSession = .ok () first ∧
      Node.updateLastIrreversibleBlock skip first = .ok () second ∧
      Node.onChain (applyBlockMaintenance block) second = .error error after

section

variable {node first second : NodeState} {skip : SkipFlags} {block : SignedBlock}

/-- What the step for irreversibility does in a block: by the number that becomes irreversible. -/
theorem updateLastIrreversibleBlock_kept
    (started : Node.onChain (applyBlockTransactions skip false block) node.startUndoSession =
      .ok () first)
    (moved : Node.updateLastIrreversibleBlock skip first = .ok () second) :
    second.undoStack =
        (node.startUndoSession.commit (node.state.irreversibleWith block)).undoStack ∧
      Node.Logged skip node (node.state.irreversibleWith block) second.blockLog := by
  obtain ⟨before, applied, rfl⟩ := Node.onChain_eq_ok.mp started
  obtain ⟨state, log, lifted, logged, rfl⟩ := Node.updateLastIrreversibleBlock_eq_ok.mp moved
  have last : state.dgp.lastIrreversibleBlockNum = node.state.irreversibleWith block :=
    (irreversibleWith_eq applied lifted).1
  rw [← last]
  exact ⟨rfl, logged.appended, logged.length⟩

theorem unharmed_of_settled (settled : node.Settled skip block) : node.Unharmed skip block := by
  obtain ⟨kept, logged⟩ := settled
  have restored : ∀ after : NodeState, after.undoStack = node.startUndoSession.undoStack →
      after.undo.state = node.state := by
    intro after same
    unfold NodeState.undo
    rw [same]
    rfl
  intro error after stopped
  suffices same : after.blockLog = node.blockLog ∧
      after.undoStack = node.startUndoSession.undoStack from
    ⟨same.1, same.2, restored after same.2⟩
  unfold Node.applyBlock at stopped
  rcases bind_eq_error.mp stopped with failed | ⟨_, first, started, stopped⟩
  · obtain ⟨_, _, rfl⟩ := Node.onChain_eq_error.mp failed
    exact ⟨rfl, rfl⟩
  rcases bind_eq_error.mp stopped with failed | ⟨_, second, moved, stopped⟩
  · obtain ⟨before, applied, rfl⟩ := Node.onChain_eq_ok.mp started
    rcases Node.updateLastIrreversibleBlock_eq_error failed with
      ⟨_, _, rfl⟩ | ⟨state, log, lifted, rfl, _, logging, short, _⟩
    · exact ⟨rfl, rfl⟩
    · have last : state.dgp.lastIrreversibleBlockNum = node.state.irreversibleWith block :=
        (irreversibleWith_eq applied lifted).1
      rw [last] at short
      rcases logged with silent | reached
      · rw [silent] at logging
        cases logging
      · exact absurd short reached.not_gt
  · obtain ⟨_, _, rfl⟩ := Node.onChain_eq_error.mp stopped
    obtain ⟨undoStack, appended⟩ := updateLastIrreversibleBlock_kept started moved
    exact ⟨appended.same logged, undoStack.trans kept⟩

theorem settled_of_unharmed (late : node.FailsLate skip block)
    (unharmed : node.Unharmed skip block) : node.Settled skip block := by
  obtain ⟨first, second, error, after, started, moved, failed⟩ := late
  have stopped : Node.applyBlock skip block node.startUndoSession = .error error after := by
    unfold Node.applyBlock
    rw [bind_of_ok started, bind_of_ok moved]
    exact failed
  obtain ⟨log, undoStack, _⟩ := unharmed error after stopped
  obtain ⟨_, _, rfl⟩ := Node.onChain_eq_error.mp failed
  obtain ⟨kept, ⟨_, length⟩⟩ := updateLastIrreversibleBlock_kept started moved
  refine ⟨kept.symm.trans undoStack, ?_⟩
  change second.blockLog = node.blockLog at log
  rw [log] at length
  cases silent : skip.blockLog with
  | true => exact .inl rfl
  | false =>
    simp only [silent, Bool.false_eq_true, if_false] at length
    exact .inr (by omega)

end

/-- The genesis witness votes for itself, and withdraws vesting shares that it routes back to itself
as vesting shares. -/
def withdrawal : SignedTransaction :=
  { genesisVote [genesisPublicKey] with
    operations := [.accountWitnessVote ⟨AccountName.genesis, AccountName.genesis, true⟩,
      .setWithdrawVestingRoute ⟨AccountName.genesis, AccountName.genesis, 10000, true⟩,
      .withdrawVesting ⟨AccountName.genesis, ⟨2500000, .vests⟩⟩] }

/-- The node after a block, the withdrawal in a second one and some more, at the time when the first
part of the withdrawal is due. -/
def nodeWithdrawing (count : Nat) : NodeState :=
  let first := genesisBlock default []
  let node := (NodeState.opened genesis).fed {} (first :: genesisBlocks first.id [withdrawal] count)
  { node with state := { node.state with accounts := ⟨node.state.accounts.objects.map fun account =>
      { account with nextVestingWithdrawal := node.state.dgp.time }, by
        rw [List.map_map]
        exact node.state.accounts.distinct⟩ } }

/-- The node shortly before the start of the witness voting, which the genesis witness alone is
scheduled for. -/
def nodeBeforeVoting : NodeState :=
  let node := nodeWithdrawing 1
  { node with state := { node.state with dgp := { node.state.dgp with
    headBlockNumber := 201599
    headBlockId := ⟨201599, 0⟩
    time := genesisTime + 604797
    lastIrreversibleBlockNum := 201578 } } }

/-- A failed block whose session, or an earlier one, is gone. -/
theorem not_unharmed {node : NodeState} {skip : SkipFlags} {block : SignedBlock}
    (outcome : (match Node.applyBlock skip block node.startUndoSession with
      | .ok _ _ => false
      | .error _ after => decide (after.undoStack.length ≠ node.undoStack.length + 1)) = true) :
    ¬ node.Unharmed skip block := by
  intro unharmed
  split at outcome
  · cases outcome
  · next stopped =>
    obtain ⟨_, undoStack, _⟩ := unharmed _ _ stopped
    exact of_decide_eq_true outcome (congrArg List.length undoStack)

end Zattera
