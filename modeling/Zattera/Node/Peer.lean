/-
This file models what a node tells a peer about its chain: `get_block_ids` of the
peer-to-peer plugin, which answers a synopsis of the peer's chain with the ids of
the blocks that come next.
-/

import Zattera.Node.Database

namespace Zattera

open Program

/-- What `get_block_ids` throws. -/
inductive PeerError where
  | chain (error : ChainError)
  /-- `peer_is_on_an_unreachable_fork` -/
  | unreachableFork
  deriving DecidableEq, Repr

namespace NodeState

/-- `is_included_block` -/
def isIncludedBlock (node : NodeState) (id : BlockId) : Except ChainError Bool := do
  let preferred ← node.getBlockIdForNum id.num
  return decide (id = preferred)

/-- The loop over the synopsis, here with its last id first: the first id that is zero or that of an
included block. -/
def lastKnownBlockId (node : NodeState) : List BlockId → Except ChainError (Option BlockId)
  | [] => return none
  | id :: earlier => do
    if id = default then return some id
    else if node.isKnownBlock id then
      if ← node.isIncludedBlock id then return some id
      else node.lastKnownBlockId earlier
    else node.lastKnownBlockId earlier

/-- The loop over the numbers from one on up to the head block's. The first argument counts the
numbers that are left. -/
def blockIdsFrom (node : NodeState) (limit : Nat) :
    Nat → Nat → List BlockId → Except ChainError (List BlockId)
  | 0, _, result => return result
  | left + 1, number, result => do
    if number ≤ node.headBlockNum ∧ result.length < limit then
      if 0 < number then
        let id ← node.getBlockIdForNum number
        node.blockIdsFrom limit left (number + 1) (result ++ [id])
      else node.blockIdsFrom limit left (number + 1) result
    else return result

/-- `get_block_ids`: the ids, and `remaining_item_count`. -/
def getBlockIds (node : NodeState) (synopsis : List BlockId) (limit : Nat) :
    Except PeerError (List BlockId × Nat) := do
  if node.headBlockNum = 0 then return ([], 0)
  let lastKnown ←
    if synopsis = [] ∨ synopsis = [default] then pure default
    else match ← (node.lastKnownBlockId synopsis.reverse).mapError PeerError.chain with
      | some id => pure id
      | none => throw .unreachableFork
  let result ← (node.blockIdsFrom limit (node.headBlockNum + 1 - lastKnown.num) lastKnown.num
    []).mapError PeerError.chain
  let remaining := match result.getLast? with
    | some id => if id.num < node.headBlockNum then node.headBlockNum - id.num else 0
    | none => 0
  return (result, remaining)

end NodeState

end Zattera
