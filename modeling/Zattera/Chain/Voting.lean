/-
This file models how votes reach witnesses. An account either votes itself or
names a proxy; a change of its vesting shares travels along the chain of
proxies, is recorded in each of them by distance, and arrives at the witnesses
the last one votes for. Two functions carry such changes: one for a single
amount, one for the amounts of an account and of everybody proxied to it.
-/

import Mathlib.Data.List.Sort
import Zattera.Chain.Balances

namespace Zattera

open Program

/-! ### One witness -/

/-- The change `adjust_witness_vote` makes to a witness: its position is brought up to the current
virtual time, and it is scheduled anew for its changed votes. -/
def Witness.adjustVote (witness : Witness) (delta : ShareType) (currentVirtualTime : UInt128)
    (totalVestingShares : ShareType) : Except ChainError Witness := do
  let deltaPos := UInt128.ofInt64 witness.votes * (currentVirtualTime - witness.virtualLastUpdate)
  let virtualPosition := witness.virtualPosition + deltaPos
  let votes ← witness.votes.add delta
  ensure (votes ≤ totalVestingShares)
    (.assertion "w.votes <= get_dynamic_global_properties().total_vesting_shares.amount")
  let lap ← UInt128.div (BitVec.allOnes 128 - virtualPosition) (BitVec.ofInt 128 (votes.toInt + 1))
  let virtualScheduledTime := currentVirtualTime + lap
  return { witness with
    virtualPosition := virtualPosition
    virtualLastUpdate := currentVirtualTime
    votes := votes
    -- A low number of votes can overflow the time; such a witness is scheduled last.
    virtualScheduledTime :=
      if virtualScheduledTime < currentVirtualTime then BitVec.allOnes 128
      else virtualScheduledTime }

/-- `adjust_witness_vote` -/
def adjustWitnessVote (name : AccountName) (delta : ShareType) : Chain Unit := do
  let state ← get
  modifyWitness name fun witness =>
    witness.adjustVote delta state.witnessSchedule.currentVirtualTime state.dgp.totalVestingShares

/-- The index `by_vote_name`: witnesses with the most votes first, by name among equals. -/
def ChainState.witnessesByVoteName (state : ChainState) : List Witness :=
  state.witnesses.objects.insertionSort fun a b =>
    b.votes < a.votes ∨ b.votes = a.votes ∧ a.owner.data ≤ b.owner.data

/-- The witnesses an account votes for, in the order of their names. -/
def ChainState.votedWitnesses (state : ChainState) (account : AccountName) : List AccountName :=
  ((state.witnessVotes.objects.filter (·.account = account)).map WitnessVote.witness).insertionSort
    fun a b => a.data ≤ b.data

/-- `adjust_witness_votes` -/
def adjustWitnessVotes (account : AccountName) (delta : ShareType) : Chain Unit := do
  let state ← get
  forM (state.votedWitnesses account) fun witness => adjustWitnessVote witness delta

/-- `clear_witness_votes` -/
def clearWitnessVotes (account : AccountName) : Chain Unit := do
  modify fun state => { state with
    witnessVotes := state.witnessVotes.filter fun vote => decide (vote.account ≠ account) }
  updateAccount account fun acc => { acc with witnessesVotedFor := 0 }

/-! ### The chain of proxies -/

/-- Add to the votes proxied to an account from a given distance. -/
def Account.addProxied (account : Account) (place : Fin 4) (delta : ShareType) :
    Except ChainError Account := do
  let votes ← (account.proxiedVsfVotes.get place).add delta
  return { account with proxiedVsfVotes := account.proxiedVsfVotes.set place votes }

/-- `adjust_proxied_witness_votes` for one amount, at depth `4 - remaining`. Beyond four proxies the
amount does not propagate. -/
def adjustProxiedFrom (delta : ShareType) : Nat → AccountName → Chain Unit
  | remaining, name => do
    let account ← getAccount name
    if account.proxy ≠ AccountName.proxyToSelf then
      match remaining with
      | 0 => return ()
      | further + 1 => do
        modifyAccount account.proxy fun proxy => proxy.addProxied (Fin.ofNat 4 (3 - further)) delta
        adjustProxiedFrom delta further account.proxy
    else adjustWitnessVotes account.name delta

/-- `adjust_proxied_witness_votes( a, delta )` -/
def adjustProxiedWitnessVotes (name : AccountName) (delta : ShareType) : Chain Unit :=
  adjustProxiedFrom delta 4 name

/-- The amounts of an account and of those proxied to it from one to four steps away. -/
abbrev VoteDeltas := Vector ShareType 5

/-- The loop that records `delta[ i ]` at distance `i + depth`. -/
def Account.addProxiedDeltas (account : Account) (delta : VoteDeltas) (depth : Nat) :
    Except ChainError Account :=
  ((List.finRange 4).reverse.filter fun place => decide (depth ≤ place.val)).foldlM
    (fun account place => account.addProxied place (delta.get (Fin.ofNat 5 (place - depth)))) account

/-- The loop that sums the amounts no more than four steps away. -/
def VoteDeltas.total (delta : VoteDeltas) (depth : Nat) : Except ChainError ShareType :=
  ((List.finRange 5).reverse.filter fun place => decide (place.val ≤ 4 - depth)).foldlM
    (fun total place => total.add (delta.get place)) 0

/-- `adjust_proxied_witness_votes` for an account together with those proxied to it, at depth
`4 - remaining`. -/
def adjustProxiedDeltasFrom (delta : VoteDeltas) : Nat → AccountName → Chain Unit
  | remaining, name => do
    let account ← getAccount name
    if account.proxy ≠ AccountName.proxyToSelf then
      match remaining with
      | 0 => return ()
      | further + 1 => do
        modifyAccount account.proxy fun proxy => proxy.addProxiedDeltas delta (3 - further)
        adjustProxiedDeltasFrom delta further account.proxy
    else do
      let total ← VoteDeltas.total delta (4 - remaining)
      adjustWitnessVotes account.name total

/-- `adjust_proxied_witness_votes( a, delta )` for an array of amounts -/
def adjustProxiedDeltas (name : AccountName) (delta : VoteDeltas) : Chain Unit :=
  adjustProxiedDeltasFrom delta 4 name

end Zattera
