/-
This file models a node around the state of the chain: the history that changes
of the state are undone with, the fork database and the block log, and
`push_block`, which takes blocks as they arrive and follows the longest chain.

The undo history holds the whole state a session started from. An exception
leaves the node as it was where it was thrown, with the destructors of what is
left behind run on the way: a session that was not pushed is undone, and the
branches of a fork switch no longer hold their items. Pending transactions are
left out; they are set aside before a block is pushed.
-/

import Mathlib.Data.List.DropRight
import Zattera.Chain.Genesis
import Zattera.Node.ForkDatabase

namespace Zattera

open Program

/-- What a session keeps to be undone. -/
structure SavedState where
  revision : Nat
  state : ChainState

/-- A node with its state, the sessions that can be undone (newest first), the revision of the
state, the fork database and the block log (newest first). -/
structure NodeState where
  state : ChainState
  undoStack : List SavedState := []
  revision : Nat := 0
  forkDb : ForkDatabase := {}
  blockLog : List SignedBlock := []

/-- Programs over the state of a node. -/
abbrev Node := EStateM ChainError NodeState

namespace NodeState

/-- `head_block_id` -/
def headBlockId (node : NodeState) : BlockId := node.state.dgp.headBlockId

/-- `head_block_num` -/
def headBlockNum (node : NodeState) : Nat := node.state.dgp.headBlockNumber

/-- The number of the last block in the log. -/
def logHeadNum (node : NodeState) : Nat := (node.blockLog.head?.map SignedBlock.blockNum).getD 0

/-- `read_block_by_num` -/
def readBlockByNum (node : NodeState) (number : Nat) : Option SignedBlock :=
  node.blockLog.find? fun block => decide (block.blockNum = number)

/-- `fetch_block_by_id` -/
def fetchBlockById (node : NodeState) (id : BlockId) : Option SignedBlock :=
  match node.forkDb.fetchBlock id with
  | some item => some item.data
  | none => (node.readBlockByNum id.num).filter fun block => decide (block.id = id)

/-- `is_known_block` -/
def isKnownBlock (node : NodeState) (id : BlockId) : Bool := (node.fetchBlockById id).isSome

/-- `find_block_id_for_num`: by the summaries of recent blocks, the block log and the fork
database, in this order. -/
def findBlockIdForNum (node : NodeState) (number : Nat) : BlockId :=
  if number = 0 then default
  else
    let summary := node.state.blockSummary (number % 65536)
    if summary.num = number then summary
    else match node.readBlockByNum number with
      | some block => block.id
      | none => ((node.forkDb.fetchBlockOnMainBranchByNumber number).map ForkItem.id).getD default

/-- `get_block_id_for_num` -/
def getBlockIdForNum (node : NodeState) (number : Nat) : Except ChainError BlockId := do
  let id := node.findBlockIdForNum number
  ensure (id ≠ default) (.assertion "bid != block_id_type()")
  return id

/-- `fetch_block_by_number`: the fork database is asked for all its blocks of that height. -/
def fetchBlockByNumber (node : NodeState) (number : Nat) : Option SignedBlock :=
  match node.forkDb.fetchBlockByNumber number with
  | [item] => some item.data
  | _ => node.readBlockByNum number

/-- `get_block_ids_on_fork` -/
def getBlockIdsOnFork (node : NodeState) (headOfFork : BlockId) :
    Except ChainError (List BlockId) := do
  let (first, second) ← node.forkDb.fetchBranchFrom node.headBlockId headOfFork
  return second.map ForkItem.id ++ [(first.getLast?.map ForkItem.previousId).getD default]

/-- `start_undo_session` -/
def startUndoSession (node : NodeState) : NodeState :=
  { node with
    undoStack := ⟨node.revision + 1, node.state⟩ :: node.undoStack
    revision := node.revision + 1 }

/-- `undo` -/
def undo (node : NodeState) : NodeState :=
  match node.undoStack with
  | [] => node
  | saved :: undoStack => { node with
      state := saved.state
      undoStack := undoStack
      revision := node.revision - 1 }

/-- `commit` -/
def commit (node : NodeState) (revision : Nat) : NodeState :=
  { node with
    undoStack := node.undoStack.rdropWhile fun saved => decide (saved.revision ≤ revision) }

/-- A change of the fork database. -/
def withForkDb (node : NodeState) (change : ForkDatabase → ForkDatabase) : NodeState :=
  { node with forkDb := change node.forkDb }

end NodeState

namespace Node

/-- Run a program over the state of the chain. -/
def onChain {α : Type} (x : Chain α) : Node α := fun node =>
  match x node.state with
  | .ok value state => .ok value { node with state := state }
  | .error error state => .error error { node with state := state }

/-- Run a change of the fork database that may fail. -/
def onForkDb (change : ForkDatabase → Except ChainError ForkDatabase) : Node Unit := do
  let forkDb ← liftM (change (← get).forkDb)
  modify fun node => { node with forkDb := forkDb }

/-- Run a program, and another one when it fails, before its exception is thrown on. -/
def onFailure (x cleanup : Node Unit) : Node Unit :=
  tryCatch x fun error => do
    cleanup
    throw error

/-- Run a program in a session of its own, which is undone when the program fails. -/
def inSession (x : Node Unit) : Node Unit := do
  modify NodeState.startUndoSession
  onFailure x (modify NodeState.undo)

/-! ### The step for irreversibility -/

/-- `append` -/
def append (block : SignedBlock) : Node Unit := do
  require ((← get).blockLog.length = block.blockNum - 1)
    (.assertion "Append to index file occuring at wrong position.")
  modify fun node => { node with blockLog := block :: node.blockLog }

/-- The loop that moves blocks of the main branch to the block log. -/
def appendFrom : Nat → Nat → Node Unit
  | _, 0 => return ()
  | number, count + 1 => do
    match (← get).forkDb.fetchBlockOnMainBranchByNumber (number + 1) with
    | none => throw (.assertion
        "Current fork in the fork database does not contain the last_irreversible_block")
    | some item =>
      append item.data
      appendFrom (number + 1) count

/-- `update_last_irreversible_block` -/
def updateLastIrreversibleBlock (skip : SkipFlags) : Node Unit := do
  onChain updateLastIrreversibleNum
  let last := (← get).state.dgp.lastIrreversibleBlockNum
  modify fun node => node.commit last
  whenever (skip.blockLog = false) do
    let logHeadNum := (← get).logHeadNum
    appendFrom logHeadNum (last - logHeadNum)
  modify fun node => node.withForkDb fun forkDb =>
    forkDb.setMaxSize (node.headBlockNum - last + 1)

/-- `apply_block` -/
def applyBlock (skip : SkipFlags) (block : SignedBlock) : Node Unit := do
  onChain (applyBlockTransactions skip false block)
  updateLastIrreversibleBlock skip
  onChain (applyBlockMaintenance block)

/-! ### Switching forks -/

/-- `pop_block` -/
def popBlock : Node Unit := do
  let node ← get
  require (node.fetchBlockById node.headBlockId).isSome
    (.assertion "there are no blocks to pop")
  onForkDb ForkDatabase.popBlock
  modify NodeState.undo

/-- The loop that pops blocks down to the one with the given id. Each turn moves the head of the
fork database down, which bounds their number. -/
def popBlocksTo (id : BlockId) : Nat → Node Unit
  | 0 => throw .diverges
  | bound + 1 => do
    if (← get).headBlockId ≠ id then do
      popBlock
      popBlocksTo id bound

/-- Pop blocks down to the one with the given id. -/
def popTo (id : BlockId) : Node Unit := do
  popBlocksTo id (((← get).forkDb.head.map ForkItem.num).getD 0 + 2)

/-- What `_push_block` does when a block of the new branch fails: it forgets that block and those
that follow it, and goes back to the old branch. -/
def restoreBranch (skip : SkipFlags) (failed oldBranch : List ForkItem) (forkPoint : BlockId) :
    Node Unit := do
  modify fun node => node.withForkDb fun forkDb =>
    failed.foldl (fun forkDb item => forkDb.remove item.id) forkDb
  modify fun node => node.withForkDb fun forkDb => forkDb.setHead oldBranch.head?
  popTo forkPoint
  forM oldBranch.reverse fun item => inSession (applyBlock skip item.data)

/-- The loop that pushes the blocks of the new branch, here the lowest first. -/
def applyBranch (skip : SkipFlags) (oldBranch : List ForkItem) (forkPoint : BlockId) :
    List ForkItem → Node Unit
  | [] => return ()
  | item :: rest => do
    onFailure (inSession (applyBlock skip item.data))
      (restoreBranch skip (item :: rest) oldBranch forkPoint)
    applyBranch skip oldBranch forkPoint rest

/-- Run a program while some items of the fork database are held. -/
def holding (items : List ForkItem) (x : Node Unit) : Node Unit := do
  let release : Node Unit := modify fun node => node.withForkDb fun forkDb =>
    { forkDb with held := [] }
  modify fun node => node.withForkDb fun forkDb => { forkDb with held := items }
  onFailure x release
  release

/-- The part of `_push_block` that switches to the branch of a new head. -/
def switchFork (skip : SkipFlags) (newHead : ForkItem) : Node Unit := do
  let node ← get
  let (newBranch, oldBranch) ← liftM (node.forkDb.fetchBranchFrom newHead.id node.headBlockId)
  let forkPoint := (oldBranch.getLast?.map ForkItem.previousId).getD default
  holding (newBranch ++ oldBranch) do
    popTo forkPoint
    applyBranch skip oldBranch forkPoint newBranch.reverse

/-- The part of `_push_block` that applies the block on top of the head. -/
def extendHead (skip : SkipFlags) (block : SignedBlock) : Node Unit :=
  onFailure (inSession (applyBlock skip block))
    (modify fun node => node.withForkDb fun forkDb => forkDb.remove block.id)

/-- What `_push_block` does with a block that the fork database has taken, by the head this gives. -/
def followHead (skip : SkipFlags) (block : SignedBlock) (newHead : ForkItem) : Node Bool := do
  let node ← get
  if newHead.previousId = node.headBlockId then do
    extendHead skip block
    return false
  else if node.headBlockNum < newHead.num then do
    switchFork skip newHead
    return true
  else return false

/-- `push_block`: whether it switched forks. -/
def pushBlock (skip : SkipFlags) (block : SignedBlock) : Node Bool :=
  if skip.forkDb then do
    extendHead skip block
    return false
  else do
    onForkDb fun forkDb => forkDb.pushBlock block
    match (← get).forkDb.head with
    | none => return false
    | some newHead => followHead skip block newHead

/-- The node that a program leaves behind, whether it finishes or stops. -/
def left {α : Type} (x : Node α) (node : NodeState) : NodeState :=
  match x node with
  | .ok _ after => after
  | .error _ after => after

end Node

/-- A node that has been opened on a new chain. -/
def NodeState.opened (start : ChainState) : NodeState := { state := start }

/-- The node after some blocks have been pushed one by one, accepted or not. -/
def NodeState.fed (node : NodeState) (skip : SkipFlags) (blocks : List SignedBlock) : NodeState :=
  blocks.foldl (fun node block => Node.left (Node.pushBlock skip block) node) node

end Zattera
