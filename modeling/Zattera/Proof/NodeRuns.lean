/-
This file says what the programs of a node do to it, whether they finish or stop
with an exception. Applying a block is taken apart into what happens to the state
of the chain, which is the business of the chain's own programs, and what the
step for irreversibility does to the undo history, the block log and the fork
database.
-/

import Zattera.Node.Database
import Zattera.Proof.Clock

namespace Zattera

open Program

variable {x : Node Unit} {number count : Nat} {log : List SignedBlock} {block : SignedBlock}

/-! ### Rules -/

namespace Node

variable {node after : NodeState} {error : ChainError} {u : Unit}

theorem onChain_eq_ok {α : Type} {x : Chain α} {value : α} :
    onChain x node = .ok value after ↔
      ∃ state, x node.state = .ok value state ∧ { node with state := state } = after := by
  unfold onChain
  cases run : x node.state with
  | ok result state => simp
  | error thrown state => simp

theorem onChain_eq_error {α : Type} {x : Chain α} :
    onChain x node = .error error after ↔
      ∃ state, x node.state = .error error state ∧ { node with state := state } = after := by
  unfold onChain
  cases run : x node.state with
  | ok result state => simp
  | error thrown state => simp

theorem onForkDb_eq_ok {change : ForkDatabase → Except ChainError ForkDatabase} :
    onForkDb change node = .ok u after ↔
      ∃ forkDb, change node.forkDb = .ok forkDb ∧ { node with forkDb := forkDb } = after := by
  simp only [onForkDb, bind_eq_ok, get_eq_ok, lift_eq_ok, modify_eq_ok]
  constructor
  · rintro ⟨_, _, ⟨rfl, rfl⟩, forkDb, _, ⟨changed, rfl⟩, rfl⟩
    exact ⟨forkDb, changed, rfl⟩
  · rintro ⟨forkDb, changed, rfl⟩
    exact ⟨node, node, ⟨rfl, rfl⟩, forkDb, node, ⟨changed, rfl⟩, rfl⟩

theorem onForkDb_eq_error {change : ForkDatabase → Except ChainError ForkDatabase} :
    onForkDb change node = .error error after ↔
      change node.forkDb = .error error ∧ node = after := by
  simp only [onForkDb, bind_eq_error, get_eq_ok, get_eq_error, lift_eq_error, modify_eq_error,
    false_or, and_false, exists_false, or_false]
  constructor
  · rintro ⟨_, _, ⟨rfl, rfl⟩, failed⟩
    exact failed
  · intro failed
    exact ⟨node, node, ⟨rfl, rfl⟩, failed⟩

theorem onFailure_eq_ok {cleanup : Node Unit} :
    onFailure x cleanup node = .ok u after ↔ x node = .ok u after := by
  unfold onFailure
  cases run : x node with
  | ok value middle => rw [tryCatch_of_ok run]
  | error thrown middle =>
    rw [tryCatch_of_error run]
    simp [bind_eq_ok]

theorem onFailure_eq_error {cleanup : Node Unit} :
    onFailure x cleanup node = .error error after ↔
      ∃ thrown middle, x node = .error thrown middle ∧
        (cleanup middle = .ok () after ∧ thrown = error ∨ cleanup middle = .error error after) := by
  unfold onFailure
  cases run : x node with
  | ok value middle =>
    rw [tryCatch_of_ok run]
    simp
  | error thrown middle =>
    rw [tryCatch_of_error run]
    simp only [bind_eq_error, throw_eq_error, EStateM.Result.error.injEq]
    constructor
    · rintro (failed | ⟨_, _, cleaned, rfl, rfl⟩)
      · exact ⟨thrown, middle, ⟨rfl, rfl⟩, .inr failed⟩
      · exact ⟨thrown, middle, ⟨rfl, rfl⟩, .inl ⟨cleaned, rfl⟩⟩
    · rintro ⟨_, _, ⟨rfl, rfl⟩, ⟨cleaned, rfl⟩ | failed⟩
      · exact .inr ⟨(), after, cleaned, rfl, rfl⟩
      · exact .inl failed

theorem onFailure_modify {change : NodeState → NodeState} (run : x node = .error error after) :
    onFailure x (modify change) node = .error error (change after) :=
  onFailure_eq_error.mpr ⟨error, after, run, .inl ⟨rfl, rfl⟩⟩

theorem inSession_eq_ok :
    inSession x node = .ok u after ↔ x node.startUndoSession = .ok u after := by
  simp only [inSession, bind_eq_ok, modify_eq_ok, onFailure_eq_ok]
  constructor
  · rintro ⟨_, _, rfl, run⟩
    exact run
  · intro run
    exact ⟨(), _, rfl, run⟩

theorem inSession_eq_error :
    inSession x node = .error error after ↔
      ∃ middle, x node.startUndoSession = .error error middle ∧ middle.undo = after := by
  simp only [inSession, bind_eq_error, modify_eq_ok, modify_eq_error, onFailure_eq_error, false_or,
    or_false]
  constructor
  · rintro ⟨_, _, rfl, _, middle, run, undone, rfl⟩
    exact ⟨middle, run, undone⟩
  · rintro ⟨middle, run, undone⟩
    exact ⟨(), _, rfl, error, middle, run, undone, rfl⟩

end Node

/-! ### The block log -/

/-- The blocks of a log are numbered from one on. -/
def Numbered : List SignedBlock → Prop
  | [] => True
  | block :: earlier => block.blockNum = earlier.length + 1 ∧ Numbered earlier

theorem Numbered.logHeadNum {node : NodeState} (numbered : Numbered node.blockLog) :
    node.logHeadNum = node.blockLog.length := by
  unfold NodeState.logHeadNum
  cases log : node.blockLog with
  | nil => rfl
  | cons block earlier =>
    rw [log] at numbered
    exact numbered.1

/-- The blocks that are added to the log are those that the fork database has on its main branch. -/
inductive Appended (forkDb : ForkDatabase) : Nat → List SignedBlock → List SignedBlock → Prop
  | none {number : Nat} {log : List SignedBlock} : Appended forkDb number log log
  | block {number : Nat} {item : ForkItem} {log later : List SignedBlock}
      (fetched : forkDb.fetchBlockOnMainBranchByNumber (number + 1) = some item)
      (follows : log.length = item.data.blockNum - 1)
      (rest : Appended forkDb (number + 1) (item.data :: log) later) :
      Appended forkDb number log later

theorem Appended.numbered {forkDb : ForkDatabase} {later : List SignedBlock}
    (appended : Appended forkDb number log later) (numbered : Numbered log) : Numbered later := by
  induction appended with
  | none => exact numbered
  | block fetched follows rest inductionHypothesis =>
    refine inductionHypothesis ⟨?_, numbered⟩
    rw [follows]
    exact (Nat.succ_pred_eq_of_pos (Nat.succ_pos _)).symm

theorem Appended.suffix {forkDb : ForkDatabase} {later : List SignedBlock}
    (appended : Appended forkDb number log later) : log <:+ later := by
  induction appended with
  | none => exact List.suffix_rfl
  | block fetched follows rest inductionHypothesis =>
    exact (List.suffix_cons _ _).trans inductionHypothesis

namespace Node

variable {node after : NodeState} {error : ChainError} {u : Unit}

theorem append_eq_ok :
    append block node = .ok u after ↔ node.blockLog.length = block.blockNum - 1 ∧
      { node with blockLog := block :: node.blockLog } = after := by
  simp only [append, bind_eq_ok, get_eq_ok, require_eq_ok, modify_eq_ok]
  constructor
  · rintro ⟨_, _, ⟨rfl, rfl⟩, _, _, ⟨follows, rfl⟩, rfl⟩
    exact ⟨follows, rfl⟩
  · rintro ⟨follows, rfl⟩
    exact ⟨node, node, ⟨rfl, rfl⟩, (), node, ⟨follows, rfl⟩, rfl⟩

theorem append_eq_error (stopped : append block node = .error error after) : node = after := by
  simp only [append, bind_eq_error, get_eq_ok, get_eq_error, require_eq_error, modify_eq_error,
    false_or, and_false, exists_false, or_false] at stopped
  obtain ⟨_, _, ⟨rfl, rfl⟩, _, _, same⟩ := stopped
  exact same

theorem appendFrom_eq_ok (run : appendFrom number count node = .ok u after) :
    ∃ log, { node with blockLog := log } = after ∧ log.length = node.blockLog.length + count ∧
      Appended node.forkDb number node.blockLog log := by
  induction count generalizing node number with
  | zero =>
    obtain ⟨_, rfl⟩ := pure_eq_ok.mp run
    exact ⟨node.blockLog, rfl, rfl, .none⟩
  | succ count inductionHypothesis =>
    unfold appendFrom at run
    replace run := get_bind_eq_ok.mp run
    cases fetched : node.forkDb.fetchBlockOnMainBranchByNumber (number + 1) with
    | none =>
      simp only [fetched] at run
      cases throw_eq_ok.mp run
    | some item =>
      simp only [fetched] at run
      obtain ⟨_, _, added, run⟩ := bind_eq_ok.mp run
      obtain ⟨follows, rfl⟩ := append_eq_ok.mp added
      obtain ⟨log, rfl, length, appended⟩ := inductionHypothesis run
      refine ⟨log, rfl, ?_, .block fetched follows appended⟩
      rw [length, List.length_cons]
      omega

theorem appendFrom_of_appended (appended : Appended node.forkDb number node.blockLog log)
    (length : log.length = node.blockLog.length + count) :
    appendFrom number count node = .ok () { node with blockLog := log } := by
  generalize start : node.blockLog = earlier at *
  generalize database : node.forkDb = forkDb at *
  induction appended generalizing node count with
  | none =>
    obtain rfl : count = 0 := by omega
    subst start database
    rfl
  | @block number item earlier later fetched follows rest inductionHypothesis =>
    have longer := rest.suffix.length_le
    rw [List.length_cons] at longer
    obtain ⟨more, rfl⟩ : ∃ more, count = more + 1 := ⟨count - 1, by omega⟩
    subst start database
    unfold appendFrom
    rw [get_bind]
    simp only [fetched]
    rw [bind_of_ok (append_eq_ok (u := ()).mpr ⟨follows, rfl⟩)]
    exact inductionHypothesis rfl (by rw [List.length_cons]; omega) rfl

theorem appendFrom_eq_error (stopped : appendFrom number count node = .error error after) :
    ∃ log, { node with blockLog := log } = after ∧ log.length ≤ node.blockLog.length + count ∧
      Appended node.forkDb number node.blockLog log := by
  induction count generalizing node number with
  | zero => cases pure_eq_error.mp stopped
  | succ count inductionHypothesis =>
    unfold appendFrom at stopped
    rcases bind_eq_error.mp stopped with failed | ⟨_, _, read, stopped⟩
    · cases get_eq_error.mp failed
    obtain ⟨rfl, rfl⟩ := get_eq_ok.mp read
    cases fetched : node.forkDb.fetchBlockOnMainBranchByNumber (number + 1) with
    | none =>
      simp only [fetched] at stopped
      obtain ⟨_, rfl⟩ := throw_eq_error.mp stopped
      exact ⟨node.blockLog, rfl, Nat.le_add_right _ _, .none⟩
    | some item =>
      simp only [fetched] at stopped
      rcases bind_eq_error.mp stopped with failed | ⟨_, _, added, stopped⟩
      · obtain rfl := append_eq_error failed
        exact ⟨node.blockLog, rfl, Nat.le_add_right _ _, .none⟩
      · obtain ⟨follows, rfl⟩ := append_eq_ok.mp added
        obtain ⟨log, rfl, length, appended⟩ := inductionHypothesis stopped
        refine ⟨log, rfl, ?_, .block fetched follows appended⟩
        rw [List.length_cons] at length
        omega

end Node

/-! ### The step for irreversibility -/

/-- The last irreversible block once a block has been put on top of a state, by the witnesses that
are scheduled there. -/
def ChainState.irreversibleWith (state : ChainState) (block : SignedBlock) : Nat :=
  irreversibleAfter block.blockNum state.dgp.lastIrreversibleBlockNum
    (state.witnessSchedule.scheduledWitnesses.map
      (Function.update state.confirmed block.witness block.blockNum))

/-- A block that makes nothing above a number irreversible, should it come to that step. -/
def Mild (skip : SkipFlags) (number : Nat) (block : SignedBlock) (state : ChainState) : Prop :=
  Finishes (applyBlockTransactions skip false block) state → state.irreversibleWith block ≤ number

instance (skip : SkipFlags) (number : Nat) (block : SignedBlock) (state : ChainState) :
    Decidable (Mild skip number block state) :=
  inferInstanceAs (Decidable (_ → _))

theorem irreversibleWith_eq {s first second : ChainState} {skip : SkipFlags} {producing : Bool}
    {u v : Unit} (started : applyBlockTransactions skip producing block s = .ok u first)
    (moved : updateLastIrreversibleNum first = .ok v second) :
    second.dgp.lastIrreversibleBlockNum = s.irreversibleWith block ∧
      second.dgp.headBlockNumber = block.blockNum := by
  obtain ⟨_, _, _, _, _, _, clock⟩ := applyBlockTransactions_clock started
  have head : first.dgp.head = _ := congrArg Clock.head clock
  have schedule : first.witnessSchedule = s.witnessSchedule := congrArg Clock.schedule clock
  have confirmed : first.confirmed = _ := congrArg Clock.confirmed clock
  have number : first.dgp.headBlockNumber = block.blockNum := congrArg HeadBlock.number head
  have last : first.dgp.lastIrreversibleBlockNum = s.dgp.lastIrreversibleBlockNum :=
    congrArg HeadBlock.lastIrreversible head
  have after : second.dgp.head = _ := congrArg Clock.head (updateLastIrreversibleNum_clock moved)
  constructor
  · refine (congrArg HeadBlock.lastIrreversible after).trans ?_
    rw [number, last, schedule, confirmed]
    rfl
  · exact (congrArg HeadBlock.number after).trans number

namespace Node

variable {node after : NodeState} {error : ChainError} {u : Unit} {skip : SkipFlags}

/-- The blocks that the step adds to the log. -/
structure Logged (skip : SkipFlags) (node : NodeState) (last : Nat) (log : List SignedBlock) :
    Prop where
  appended : Appended node.forkDb node.logHeadNum node.blockLog log
  length : log.length =
    node.blockLog.length + if skip.blockLog then 0 else last - node.logHeadNum

theorem Logged.same {last : Nat} (logged : Logged skip node last log)
    (reached : skip.blockLog = true ∨ last ≤ node.logHeadNum) : log = node.blockLog := by
  refine (logged.appended.suffix.eq_of_length ?_).symm
  rw [logged.length]
  rcases reached with silent | reached
  · rw [silent]
    rfl
  · rw [Nat.sub_eq_zero_of_le reached, ite_self, Nat.add_zero]

/-- The step finishes when the fork database has the blocks for the log. -/
theorem updateLastIrreversibleBlock_eq_ok :
    updateLastIrreversibleBlock skip node = .ok u after ↔
      ∃ state log, updateLastIrreversibleNum node.state = .ok () state ∧
        Logged skip node state.dgp.lastIrreversibleBlockNum log ∧
        { node.commit state.dgp.lastIrreversibleBlockNum with
          state := state
          blockLog := log
          forkDb := node.forkDb.setMaxSize
            (state.dgp.headBlockNumber - state.dgp.lastIrreversibleBlockNum + 1) } = after := by
  constructor
  · intro run
    simp only [updateLastIrreversibleBlock, bind_eq_ok, onChain_eq_ok, get_eq_ok, modify_eq_ok]
      at run
    obtain ⟨_, _, ⟨state, moved, rfl⟩, _, _, ⟨rfl, rfl⟩, _, _, rfl, _, _, logged, rfl⟩ := run
    refine ⟨state, ?_⟩
    rcases whenever_eq_ok.mp logged with ⟨logging, run⟩ | ⟨silent, rfl⟩
    · replace run := get_bind_eq_ok.mp run
      obtain ⟨log, rfl, length, appended⟩ := appendFrom_eq_ok run
      refine ⟨log, moved, ⟨appended, ?_⟩, rfl⟩
      rw [logging]
      exact length
    · refine ⟨node.blockLog, moved, ⟨.none, ?_⟩, rfl⟩
      rw [Bool.not_eq_false] at silent
      rw [silent]
      rfl
  · rintro ⟨state, log, moved, logged, rfl⟩
    simp only [updateLastIrreversibleBlock, bind_eq_ok, onChain_eq_ok, get_eq_ok, modify_eq_ok]
    refine ⟨(), _, ⟨state, moved, rfl⟩, _, _, ⟨rfl, rfl⟩, (), _, rfl, (),
      { node.commit state.dgp.lastIrreversibleBlockNum with
        state := state
        blockLog := log }, ?_, rfl⟩
    refine whenever_eq_ok.mpr ?_
    cases silent : skip.blockLog with
    | true =>
      refine .inr ⟨by simp, ?_⟩
      have length := logged.length
      rw [silent, if_pos rfl, Nat.add_zero] at length
      rw [← logged.appended.suffix.eq_of_length length.symm]
      rfl
    | false =>
      refine .inl ⟨rfl, bind_eq_ok.mpr ⟨_, _, get_eq_ok.mpr ⟨rfl, rfl⟩, ?_⟩⟩
      have length := logged.length
      rw [silent] at length
      exact appendFrom_of_appended logged.appended length

/-- What the step may have done when it stops: it has not come to the fork database. -/
theorem updateLastIrreversibleBlock_eq_error
    (stopped : updateLastIrreversibleBlock skip node = .error error after) :
    (∃ state, updateLastIrreversibleNum node.state = .error error state ∧
      { node with state := state } = after) ∨
    ∃ state log, updateLastIrreversibleNum node.state = .ok () state ∧
      { node.commit state.dgp.lastIrreversibleBlockNum with
        state := state
        blockLog := log } = after ∧
      Appended node.forkDb node.logHeadNum node.blockLog log ∧ skip.blockLog = false ∧
      node.logHeadNum < state.dgp.lastIrreversibleBlockNum ∧
      log.length ≤ node.blockLog.length +
        (state.dgp.lastIrreversibleBlockNum - node.logHeadNum) := by
  simp only [updateLastIrreversibleBlock, bind_eq_error, onChain_eq_ok, onChain_eq_error,
    get_eq_ok, get_eq_error, modify_eq_ok, modify_eq_error, false_or, and_false, exists_false,
    or_false] at stopped
  obtain failed | ⟨_, _, ⟨state, moved, rfl⟩, _, _, ⟨rfl, rfl⟩, _, _, rfl, stopped⟩ := stopped
  · exact .inl failed
  refine .inr ⟨state, ?_⟩
  obtain ⟨logging, stopped⟩ := whenever_eq_error.mp stopped
  rcases bind_eq_error.mp stopped with failed | ⟨_, _, read, stopped⟩
  · cases get_eq_error.mp failed
  obtain ⟨rfl, rfl⟩ := get_eq_ok.mp read
  obtain ⟨log, rfl, length, appended⟩ := appendFrom_eq_error stopped
  refine ⟨log, moved, rfl, appended, logging, ?_, length⟩
  by_contra reached
  have nothing : state.dgp.lastIrreversibleBlockNum - node.logHeadNum = 0 := by omega
  change appendFrom node.logHeadNum (state.dgp.lastIrreversibleBlockNum - node.logHeadNum) _ =
    _ at stopped
  rw [nothing] at stopped
  cases pure_eq_error.mp stopped

end Node

/-! ### Applying a block -/

namespace NodeState

variable {node : NodeState} {skip : SkipFlags} {block : SignedBlock}

theorem rdropWhile_cons_of_neg {α : Type} {p : α → Bool} {a : α} {l : List α} (stays : ¬ p a) :
    (a :: l).rdropWhile p = a :: l.rdropWhile p := by
  induction l using List.reverseRecOn with
  | nil => rw [List.rdropWhile_singleton, if_neg stays, List.rdropWhile_nil]
  | append_singleton l last inductionHypothesis =>
    rw [← List.cons_append, List.rdropWhile_concat, List.rdropWhile_concat, inductionHypothesis]
    split <;> rfl

theorem undo_of_undoStack (entry : SavedState) (rest : List SavedState)
    (same : node.undoStack = entry :: rest) :
    node.undo = { node with
      state := entry.state
      undoStack := rest
      revision := node.revision - 1 } := by
  unfold undo
  rw [same]

/-- The session of a block stays when what is made irreversible lies below it. -/
theorem commit_startUndoSession (node : NodeState) {last : Nat} (recent : last ≤ node.revision) :
    (node.startUndoSession.commit last).undoStack =
      ⟨node.revision + 1, node.state⟩ :: (node.commit last).undoStack :=
  rdropWhile_cons_of_neg (by simpa using Nat.lt_succ_of_le recent)

/-- The node after a block that was applied in a session. -/
def extended (node : NodeState) (block : SignedBlock) (state : ChainState)
    (log : List SignedBlock) : NodeState :=
  { node.startUndoSession.commit (node.state.irreversibleWith block) with
    state := state
    blockLog := log
    forkDb := node.forkDb.setMaxSize (block.blockNum - node.state.irreversibleWith block + 1) }

end NodeState

namespace Node

variable {node after : NodeState} {error : ChainError} {u : Unit} {skip : SkipFlags}
  {block : SignedBlock}

/-- A block is applied when the chain takes it and the fork database has the blocks for the log. -/
theorem inSession_applyBlock_eq_ok :
    inSession (applyBlock skip block) node = .ok u after ↔
      ∃ state log, Zattera.applyBlock skip false block node.state = .ok () state ∧
        Logged skip node (node.state.irreversibleWith block) log ∧
        node.extended block state log = after := by
  rw [inSession_eq_ok]
  simp only [applyBlock, bind_eq_ok, onChain_eq_ok, updateLastIrreversibleBlock_eq_ok]
  constructor
  · rintro ⟨_, _, ⟨first, started, rfl⟩, _, _, ⟨second, log, moved, logged, rfl⟩, state, ended,
      rfl⟩
    obtain ⟨last, number⟩ := irreversibleWith_eq started moved
    change second.dgp.lastIrreversibleBlockNum = node.state.irreversibleWith block at last
    refine ⟨state, log, ?_, last ▸ ⟨logged.appended, logged.length⟩, ?_⟩
    · simp only [Zattera.applyBlock, bind_eq_ok]
      exact ⟨(), first, started, (), second, moved, ended⟩
    · rw [NodeState.extended, ← last, ← number]
      rfl
  · rintro ⟨state, log, applied, logged, rfl⟩
    simp only [Zattera.applyBlock, bind_eq_ok] at applied
    obtain ⟨_, first, started, _, second, moved, ended⟩ := applied
    obtain ⟨last, number⟩ := irreversibleWith_eq started moved
    rw [← last] at logged
    refine ⟨(), _, ⟨first, started, rfl⟩, (), _,
      ⟨second, log, moved, ⟨logged.appended, logged.length⟩, rfl⟩, state, ended, ?_⟩
    rw [NodeState.extended, ← last, ← number]
    rfl

/-- A block whose session is still there when it fails is undone; the sessions of older blocks, the
log and the fork database may have been changed by the step for irreversibility. -/
theorem inSession_applyBlock_eq_error (recent : Mild skip node.revision block node.state)
    (stopped : inSession (applyBlock skip block) node = .error error after) :
    after = node ∨
    Finishes (applyBlockTransactions skip false block) node.state ∧
    ∃ log forkDb, Appended node.forkDb node.logHeadNum node.blockLog log ∧
      (skip.blockLog = true ∨ node.state.irreversibleWith block ≤ node.logHeadNum →
        log = node.blockLog) ∧
      log.length ≤ node.blockLog.length + (node.state.irreversibleWith block - node.logHeadNum) ∧
      (forkDb = node.forkDb ∨ Logged skip node (node.state.irreversibleWith block) log ∧
        forkDb =
          node.forkDb.setMaxSize (block.blockNum - node.state.irreversibleWith block + 1)) ∧
      { node.commit (node.state.irreversibleWith block) with
        blockLog := log
        forkDb := forkDb } = after := by
  obtain ⟨middle, failed, rfl⟩ := inSession_eq_error.mp stopped
  unfold applyBlock at failed
  rcases bind_eq_error.mp failed with failed | ⟨_, _, started, failed⟩
  · obtain ⟨_, _, rfl⟩ := onChain_eq_error.mp failed
    exact .inl rfl
  obtain ⟨first, begun, rfl⟩ := onChain_eq_ok.mp started
  have finishes : Finishes (applyBlockTransactions skip false block) node.state :=
    ⟨(), first, begun⟩
  have kept := node.commit_startUndoSession (recent finishes)
  rcases bind_eq_error.mp failed with failed | ⟨_, _, moved, failed⟩
  · rcases updateLastIrreversibleBlock_eq_error failed with
      ⟨_, _, rfl⟩ | ⟨second, log, lifted, rfl, appended, logging, short, length⟩
    · exact .inl rfl
    · have last : second.dgp.lastIrreversibleBlockNum = node.state.irreversibleWith block :=
        (irreversibleWith_eq begun lifted).1
      rw [← last] at kept ⊢
      refine .inr ⟨finishes, log, node.forkDb, appended, ?_, length, .inl rfl, Eq.symm ?_⟩
      · rintro (silent | reached)
        · rw [logging] at silent
          cases silent
        · exact absurd short reached.not_gt
      · exact NodeState.undo_of_undoStack ⟨_, node.state⟩ _ kept
  · obtain ⟨second, log, lifted, logged, rfl⟩ := updateLastIrreversibleBlock_eq_ok.mp moved
    obtain ⟨_, _, rfl⟩ := onChain_eq_error.mp failed
    obtain ⟨last, number⟩ := irreversibleWith_eq begun lifted
    change second.dgp.lastIrreversibleBlockNum = node.state.irreversibleWith block at last
    rw [← last] at kept ⊢
    rw [← number]
    refine .inr ⟨finishes, log, _, logged.appended, logged.same, ?_,
      .inr ⟨⟨logged.appended, logged.length⟩, rfl⟩, Eq.symm ?_⟩
    · refine logged.length.trans_le (Nat.add_le_add_left ?_ _)
      split
      · exact Nat.zero_le _
      · exact le_rfl
    · exact NodeState.undo_of_undoStack ⟨_, node.state⟩ _ kept

end Node

end Zattera
