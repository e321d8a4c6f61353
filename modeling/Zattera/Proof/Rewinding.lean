/-
This file is about going back along a chain and about what is not gone back on. A
node keeps every block of its chain and the states of the newest ones, so that
popping blocks returns it to the state each of them was applied to, from where they
lead to the same state again. The last irreversible block never moves back, and it
never passes the head block.
-/

import Zattera.Proof.Finality
import Zattera.Proof.Lookups

namespace Zattera

open Program

variable {skip : SkipFlags} {start state : ChainState} {chain : List SignedBlock}
  {liquid dollar : ShareType}

/-! ### Popping blocks -/

/-- The newest blocks of a chain are those of the newest items. -/
theorem newest_eq_map_take {above below log : List SignedBlock} {items : List ForkItem}
    (whole : above ++ below = items.map ForkItem.data ++ log)
    (short : above.length ≤ items.length) :
    above = (items.take above.length).map ForkItem.data := by
  have front := congrArg (List.take above.length) whole
  rwa [List.take_left, List.take_append_of_le_length (by rwa [List.length_map]),
    ← List.map_take] at front

section

variable {pushed : List SignedBlock} {node : NodeState} (inUse : skip.forkDb = false)
  (logging : skip.blockLog = false) (run : RoomyRun skip (initGenesis liquid dollar) pushed node)
  (distinct : ∀ first ∈ pushed, ∀ second ∈ pushed, first.id = second.id → first = second)

include inUse logging run distinct

/-- In a run of calm steps that leave room for going back, the log of a node has the oldest blocks
of its chain, and its fork database the others, each pointing to the one below; every session that
can be undone leads to the state its block was applied to. -/
theorem chain_kept :
    ∃ chain items, Replayed skip (initGenesis liquid dollar) chain node.state ∧
      chain = items.map ForkItem.data ++ node.blockLog ∧
      (∀ item ∈ items, node.forkDb.fetchBlock item.id = some item) ∧
      ForkDatabase.Pointing items ∧ node.revision = chain.length ∧
      ∀ place saved, node.undoStack[place]? = some saved →
        Replayed skip (initGenesis liquid dollar) (chain.drop (place + 1)) saved.state ∧
          saved.revision + place = chain.length := by
  have blank := blank_initGenesis liquid dollar
  obtain ⟨chain, floor, items, ⟨coherent, _⟩, retained⟩ := run.retained blank inUse logging distinct
  exact ⟨chain, items, coherent.history.replayed, retained.whole,
    fun item member => Table.find?_of_mem (retained.indexed item member), retained.pointing,
    coherent.revision, fun place saved found => ⟨coherent.history.replayed_of_mem found,
      (coherent.history.revision_of_mem blank found).1⟩⟩

/-- In a run of calm steps that leave room for going back, a node whose fork database is at the head
block can pop every block that is not in the log, as long as it has the states it goes back to. It
returns to the state in which the block was the head block, and the popped blocks lead back. -/
theorem popTo_retraces
    (synced : node.forkDb.head = node.forkDb.index.find? node.headBlockId) :
    ∃ chain, Replayed skip (initGenesis liquid dollar) chain node.state ∧
      ∀ above block base, chain = above ++ block :: base → node.blockLog.length ≤ base.length →
        above.length ≤ node.undoStack.length →
        ∃ popped, Node.popTo block.id node = .ok () popped ∧
          Replayed skip (initGenesis liquid dollar) (block :: base) popped.state ∧
          Replayed skip popped.state above node.state ∧ popped.revision = block.blockNum ∧
          popped.blockLog = node.blockLog := by
  have blank := blank_initGenesis liquid dollar
  obtain ⟨chain, floor, items, sound, retained⟩ := run.retained blank inUse logging distinct
  refine ⟨chain, sound.coherent.history.replayed, fun above block base split unlogged saved => ?_⟩
  have coherent := split ▸ sound.coherent
  have indexed (item : ForkItem) (member : item ∈ items) :
      node.forkDb.index.find? item.id = some item :=
    Table.find?_of_mem (retained.indexed item member)
  -- the blocks above the log are those of the items, so the popped ones are among them
  have length := congrArg List.length retained.whole
  rw [split, List.length_append, List.length_append, List.length_map, List.length_cons] at length
  have popped := newest_eq_map_take (split.symm.trans retained.whole) (by omega)
  obtain ⟨top, rest, rfl⟩ : ∃ top rest, items = top :: rest :=
    List.exists_cons_of_length_pos (by omega)
  have isHead : node.forkDb.head = some top := by
    rw [synced, sound.coherent.headBlockId blank, retained.whole]
    exact indexed top List.mem_cons_self
  have bounded : above.length < (node.forkDb.head.map ForkItem.num).getD 0 + 2 := by
    have number : (headId chain).num = chain.length :=
      (sound.coherent.history.replayed.head blank).2.2
    have isTop : top.num = (headId chain).num := by
      rw [retained.whole]
      rfl
    rw [isHead, Option.map_some, Option.getD_some, isTop, number, split, List.length_append]
    omega
  have part : rest.take above.length <+: rest := List.take_prefix _ _
  obtain ⟨state, run, lower⟩ := coherent.popBlocksTo blank saved isHead
    (retained.pointing.of_prefix part) (fun prev member => .inl (retained.indexed prev
      (List.mem_cons_of_mem top (part.subset member))))
    (by rw [List.length_take]; rw [List.length_cons] at length; omega)
    (fun block member => by
      rw [popped] at member
      obtain ⟨item, inside, rfl⟩ := List.mem_map.mp member
      rw [show item.data.id = item.id from rfl, indexed item (List.mem_of_mem_take inside)]
      rfl) bounded
  obtain ⟨before, earlier, onward⟩ := coherent.history.drop saved
  refine ⟨_, get_bind_eq_ok.mpr run, lower.history.replayed, ?_, ?_, rfl⟩
  · rw [lower.history.replayed.unique earlier.replayed]
    exact onward
  · exact ((lower.history.replayed.previous blank).2).symm

end

theorem roomyRun_nodeForked :
    RoomyRun {} genesis [forkLeft.twin, forkLeft, forkRoot] nodeForked := by
  unfold nodeForked
  refine .push (.push (.push .opened (.follows ?_ ?_ ?_) ?_) (.follows ?_ ?_ ?_) ?_)
    (.stored ?_ ?_) ?_
  all_goals decide +kernel

theorem nodeForked_chain_kept : nodeForked.headBlockNum = 2 ∧ ∃ chain,
    Replayed {} genesis chain nodeForked.state ∧ nodeForked.revision = chain.length := by
  obtain ⟨chain, _, replayed, _, _, _, revision, _⟩ :=
    chain_kept rfl rfl roomyRun_nodeForked (by decide +kernel)
  exact ⟨by decide +kernel, chain, replayed, revision⟩

/-- A node with one block on top of another can go back to that one. -/
theorem nodeForked_popTo : ∃ above block popped, nodeForked.headBlockNum = 2 ∧
    Node.popTo block.id nodeForked = .ok () popped ∧ Replayed {} genesis [block] popped.state ∧
    Replayed {} popped.state [above] nodeForked.state := by
  have height : nodeForked.headBlockNum = 2 := by decide +kernel
  obtain ⟨chain, replayed, pops⟩ :=
    popTo_retraces rfl rfl roomyRun_nodeForked (by decide +kernel) (by decide +kernel)
  have length : chain.length = 2 := (replayed.head (blank_initGenesis _ _)).2.1.symm.trans height
  obtain ⟨above, block, rfl⟩ := List.length_eq_two.mp length
  have saved : 1 ≤ nodeForked.undoStack.length := by decide +kernel
  obtain ⟨popped, run, back, onward, _⟩ := pops [above] block [] rfl (by decide +kernel) saved
  exact ⟨above, block, popped, height, run, back, onward⟩

/-! ### Irreversible blocks -/

theorem quorumNumber_le {numbers : List Nat} {bound : Nat}
    (each : ∀ number ∈ numbers, number ≤ bound) : quorumNumber numbers ≤ bound := by
  rw [quorumNumber, List.getD_eq_getElem?_getD]
  cases found : (numbers.insertionSort (· ≤ ·))[2500 * numbers.length / 10000]? with
  | none => exact Nat.zero_le _
  | some number =>
    exact each number ((List.mem_insertionSort _).mp (List.mem_of_getElem? found))

/-- Neither what witnesses have confirmed nor what is irreversible is above the head block. -/
theorem Replayed.confirmed_le (replayed : Replayed skip start chain state) (blank : start.Blank)
    (unconfirmed : start.Unconfirmed) :
    (∀ name, state.confirmed name ≤ chain.length) ∧
      state.dgp.lastIrreversibleBlockNum ≤ chain.length := by
  induction replayed with
  | start =>
    rw [unconfirmed.confirmed, blank.irreversible]
    exact ⟨fun _ => le_rfl, le_rfl⟩
  | @block blocks before after earlier next applied inductionHypothesis =>
    obtain ⟨confirmed, last⟩ := inductionHypothesis
    have number := ((earlier.block next applied).previous blank).2
    obtain ⟨updated, head⟩ := applyBlock_pulse applied
    have each (name : AccountName) : after.confirmed name ≤ blocks.length + 1 := by
      rw [updated]
      by_cases isWitness : name = next.witness
      · rw [isWitness, Function.update_self, number]
      · rw [Function.update_of_ne isWitness]
        exact (confirmed name).trans (Nat.le_succ _)
    refine ⟨each, ?_⟩
    rw [show after.dgp.lastIrreversibleBlockNum = _ from congrArg HeadBlock.lastIrreversible head]
    change irreversibleAfter _ _ _ ≤ blocks.length + 1
    rw [irreversibleAfter, number]
    split
    · split <;> omega
    · refine max_le (by omega) (quorumNumber_le fun number member => ?_)
      obtain ⟨name, _, rfl⟩ := List.mem_map.mp member
      exact each name

/-- Along every chain what is irreversible stays so, and is never more than the chain. -/
theorem irreversible_never_back {later : List SignedBlock} {final : ChainState}
    (replayed : Replayed skip (initGenesis liquid dollar) chain state)
    (onward : Replayed skip state later final) :
    state.dgp.lastIrreversibleBlockNum ≤ final.dgp.lastIrreversibleBlockNum ∧
      final.dgp.lastIrreversibleBlockNum ≤ final.dgp.headBlockNumber ∧
      ∀ name, final.confirmed name ≤ final.dgp.headBlockNumber := by
  have blank := blank_initGenesis liquid dollar
  have whole := replayed.append onward
  obtain ⟨confirmed, last⟩ := whole.confirmed_le blank (unconfirmed_initGenesis liquid dollar)
  have number := (whole.head blank).2.1
  rw [number]
  refine ⟨?_, last, confirmed⟩
  clear whole confirmed last number
  induction onward with
  | start => exact le_rfl
  | block earlier next applied inductionHypothesis =>
    exact inductionHypothesis.trans ((replayed.append earlier).irreversible_le blank applied)

theorem forkRoot_never_back : ∃ after, applyBlock {} false forkRoot genesis = .ok () after ∧
    after.dgp.lastIrreversibleBlockNum ≤ after.dgp.headBlockNumber ∧
    after.confirmed AccountName.genesis ≤ after.dgp.headBlockNumber := by
  have finished : Finishes (applyBlock {} false forkRoot) genesis := by decide +kernel
  obtain ⟨_, after, applied⟩ := finished
  obtain ⟨_, last, confirmed⟩ := irreversible_never_back .start (.block .start forkRoot applied)
  exact ⟨after, applied, last, confirmed _⟩

end Zattera
