/-
This file models the fork database: the tree of recent blocks that a node keeps
beside its state, with the item it takes for the head of the longest chain.

An item points to the item of its previous block by a weak pointer, which is
empty once that item is gone, even when the same block has been stored again as
another item. Items are therefore told apart by a serial number, and a pointer is
followed among the items that something still holds: the index, the head, or the
branches that `_push_block` has fetched. No block is ever marked invalid and none
is kept as unlinked, so these two parts of the source are left out.
-/

import Zattera.Lib.Table
import Zattera.Protocol.Transaction

namespace Zattera

open Program

/-- `fork_item` -/
structure ForkItem where
  serial : Nat
  prev : Option Nat
  data : SignedBlock
  deriving DecidableEq

namespace ForkItem

/-- The number of the item's block. -/
def num (item : ForkItem) : Nat := item.data.blockNum

/-- The id of the item's block. -/
def id (item : ForkItem) : BlockId := item.data.id

/-- `previous_id` -/
def previousId (item : ForkItem) : BlockId := item.data.previous

end ForkItem

/-- `fork_database` -/
structure ForkDatabase where
  index : Table BlockId ForkItem ForkItem.id := .empty
  head : Option ForkItem := none
  maxSize : Nat := 1024
  /-- Items that are held outside of the database. -/
  held : List ForkItem := []
  nextSerial : Nat := 0

namespace ForkDatabase

/-- The items that still exist. -/
def items (forkDb : ForkDatabase) : List ForkItem :=
  forkDb.index.objects ++ forkDb.head.toList ++ forkDb.held

/-- `lock`: what a weak pointer points to, if it still exists. -/
def lock (forkDb : ForkDatabase) (pointer : Option Nat) : Option ForkItem :=
  pointer.bind fun serial => forkDb.items.find? fun item => decide (item.serial = serial)

/-- `fetch_block` -/
def fetchBlock (forkDb : ForkDatabase) (id : BlockId) : Option ForkItem := forkDb.index.find? id

/-- `fetch_block_by_number` -/
def fetchBlockByNumber (forkDb : ForkDatabase) (number : Nat) : List ForkItem :=
  forkDb.index.objects.filter fun item => decide (item.num = number)

/-! ### Changes -/

/-- `pop_block` -/
def popBlock (forkDb : ForkDatabase) : Except ChainError ForkDatabase :=
  match forkDb.head with
  | none => .error (.assertion "cannot pop an empty fork database")
  | some head =>
    match forkDb.lock head.prev with
    | none => .error (.assertion "popping head block would leave fork DB empty")
    | some prev => .ok { forkDb with head := some prev }

/-- `start_block` -/
def startBlock (forkDb : ForkDatabase) (block : SignedBlock) : ForkDatabase :=
  let item : ForkItem := ⟨forkDb.nextSerial, none, block⟩
  { forkDb with
    index := forkDb.index.insertNew item
    head := some item
    nextSerial := forkDb.nextSerial + 1 }

/-- The new item takes its place in the index, unless its id is there, and becomes the head when it
is the highest. -/
def add (forkDb : ForkDatabase) (prev : Option Nat) (block : SignedBlock) : ForkDatabase :=
  let item : ForkItem := ⟨forkDb.nextSerial, prev, block⟩
  { forkDb with
    index := forkDb.index.insertNew item
    head := match forkDb.head with
      | none => some item
      | some head => some (if head.num < item.num then item else head)
    nextSerial := forkDb.nextSerial + 1 }

/-- `_push_block` -/
def pushBlock (forkDb : ForkDatabase) (block : SignedBlock) : Except ChainError ForkDatabase :=
  match forkDb.head with
  | none => .ok (forkDb.add none block)
  | some head => do
    ensure (head.num - forkDb.maxSize < block.blockNum)
      (.assertion "attempting to push a block that is too old")
    if block.previous ≠ default then
      match forkDb.index.find? block.previous with
      | none => .error .unlinkableBlock
      | some prev => .ok (forkDb.add (some prev.serial) block)
    else .ok (forkDb.add none block)

/-- `set_max_size` -/
def setMaxSize (forkDb : ForkDatabase) (size : Nat) : ForkDatabase :=
  match forkDb.head with
  | none => { forkDb with maxSize := size }
  | some head => { forkDb with
      maxSize := size
      index := forkDb.index.filter fun item => decide (head.num - size ≤ item.num) }

/-- `set_head` -/
def setHead (forkDb : ForkDatabase) (item : Option ForkItem) : ForkDatabase :=
  { forkDb with head := item }

/-- `remove` -/
def remove (forkDb : ForkDatabase) (id : BlockId) : ForkDatabase :=
  { forkDb with index := forkDb.index.erase id }

/-! ### Walks along the tree

Each turn of a walk leads to an item whose number is one less, so that the number of an item bounds
the turns from there on.
-/

/-- The first two loops of `fetch_branch_from`: the items above a number, from the highest on, and
the item they lead to. -/
def itemsAbove (forkDb : ForkDatabase) (number : Nat) :
    Nat → ForkItem → Except ChainError (List ForkItem × ForkItem)
  | 0, _ => .error .diverges
  | bound + 1, item =>
    if number < item.num then
      match forkDb.lock item.prev with
      | none => .error (.assertion "first_branch")
      | some prev => do
        let (above, last) ← forkDb.itemsAbove number bound prev
        return (item :: above, last)
    else return ([], item)

/-- The last loop of `fetch_branch_from`, down to two items with the same previous block -/
def itemsApart (forkDb : ForkDatabase) :
    Nat → ForkItem → ForkItem → Except ChainError (List ForkItem × List ForkItem)
  | 0, _, _ => .error .diverges
  | bound + 1, first, second =>
    if first.previousId ≠ second.previousId then
      match forkDb.lock first.prev, forkDb.lock second.prev with
      | some firstPrev, some secondPrev => do
        let (firstRest, secondRest) ← forkDb.itemsApart bound firstPrev secondPrev
        return (first :: firstRest, second :: secondRest)
      | _, _ => .error (.assertion "first_branch && second_branch")
    else return ([first], [second])

/-- `fetch_branch_from` -/
def fetchBranchFrom (forkDb : ForkDatabase) (first second : BlockId) :
    Except ChainError (List ForkItem × List ForkItem) :=
  match forkDb.index.find? first, forkDb.index.find? second with
  | some firstBranch, some secondBranch => do
    let (firstAbove, firstItem) ←
      forkDb.itemsAbove secondBranch.num (firstBranch.num + 1) firstBranch
    let (secondAbove, secondItem) ←
      forkDb.itemsAbove firstItem.num (secondBranch.num + 1) secondBranch
    let (firstApart, secondApart) ← forkDb.itemsApart (firstItem.num + 1) firstItem secondItem
    return (firstAbove ++ firstApart, secondAbove ++ secondApart)
  | _, _ => .error (.assertion "branch_itr != _index.get<block_id>().end()")

/-- The loop of `walk_main_branch_to_num` -/
def walkDown (forkDb : ForkDatabase) (number : Nat) : Nat → ForkItem → Option ForkItem
  | 0, _ => none
  | bound + 1, item =>
    if number < item.num then
      (forkDb.lock item.prev).bind fun prev => forkDb.walkDown number bound prev
    else some item

/-- `walk_main_branch_to_num` -/
def walkMainBranchToNum (forkDb : ForkDatabase) (number : Nat) : Option ForkItem :=
  forkDb.head.bind fun head =>
    if head.num < number then none else forkDb.walkDown number (head.num + 1) head

/-- `fetch_block_on_main_branch_by_number` -/
def fetchBlockOnMainBranchByNumber (forkDb : ForkDatabase) (number : Nat) : Option ForkItem :=
  match forkDb.fetchBlockByNumber number with
  | [item] => some item
  | [] => none
  | _ => forkDb.walkMainBranchToNum number

end ForkDatabase

end Zattera
