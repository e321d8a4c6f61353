/-
This file relates a node to the chain of blocks it has applied: the state is what
these blocks lead to, and the undo history holds the states that the newest of
them were applied to. Popping blocks goes back along the chain, and applying the
same blocks again leads to the same state.
-/

import Zattera.Proof.NodeRuns

namespace Zattera

open Program

variable {above base : List SignedBlock} {entry : SavedState} {block : SignedBlock}

/-! ### Replaying blocks -/

/-- The state that some blocks, the newest first, lead to. -/
inductive Replayed (skip : SkipFlags) (start : ChainState) : List SignedBlock → ChainState → Prop
  | start : Replayed skip start [] start
  | block {blocks : List SignedBlock} {before after : ChainState}
      (earlier : Replayed skip start blocks before) (next : SignedBlock)
      (applied : applyBlock skip false next before = .ok () after) :
      Replayed skip start (next :: blocks) after

/-- The id of the newest of some blocks. -/
def headId : List SignedBlock → BlockId
  | [] => default
  | block :: _ => block.id

/-- A state in which no block has been applied. -/
structure ChainState.Blank (state : ChainState) : Prop where
  number : state.dgp.headBlockNumber = 0
  id : state.dgp.headBlockId = default
  irreversible : state.dgp.lastIrreversibleBlockNum = 0

theorem blank_initGenesis (liquid dollar : ShareType) : (initGenesis liquid dollar).Blank :=
  ⟨rfl, rfl, rfl⟩

section Blocks

variable {s t : ChainState} {skip : SkipFlags} {producing : Bool} {block : SignedBlock} {u : Unit}

theorem applyBlock_irreversible (run : applyBlock skip producing block s = .ok u t) :
    t.dgp.lastIrreversibleBlockNum = s.irreversibleWith block := by
  obtain ⟨confirmed, head⟩ := applyBlock_pulse run
  refine (congrArg HeadBlock.lastIrreversible head).trans ?_
  rw [confirmed]
  rfl

theorem applyBlock_head (run : applyBlock skip producing block s = .ok u t) :
    s.dgp.headBlockId = block.previous ∧ t.dgp.headBlockId = block.id ∧
      t.dgp.headBlockNumber = block.blockNum := by
  obtain ⟨_, head⟩ := applyBlock_pulse run
  obtain ⟨_, _, started, _⟩ := bind_eq_ok.mp run
  exact ⟨(applyBlockTransactions_clock started).1, congrArg HeadBlock.id head,
    congrArg HeadBlock.number head⟩

end Blocks

namespace Replayed

variable {skip : SkipFlags} {start state : ChainState} {chain : List SignedBlock}

theorem unique {other : ChainState} (replayed : Replayed skip start chain state)
    (again : Replayed skip start chain other) : state = other := by
  induction replayed generalizing other with
  | start =>
    cases again
    rfl
  | block earlier next applied inductionHypothesis =>
    cases again with
    | block earlier' _ applied' =>
      rw [inductionHypothesis earlier', applied'] at applied
      exact (EStateM.Result.ok.inj applied).2.symm

theorem head (replayed : Replayed skip start chain state) (blank : start.Blank) :
    state.dgp.headBlockId = headId chain ∧ state.dgp.headBlockNumber = chain.length ∧
      (headId chain).num = chain.length := by
  induction replayed with
  | start => exact ⟨blank.id, blank.number, rfl⟩
  | block earlier next applied inductionHypothesis =>
    obtain ⟨id, _, length⟩ := inductionHypothesis
    obtain ⟨previous, newId, number⟩ := applyBlock_head applied
    have follows : next.blockNum = _ + 1 := congrArg (fun id : BlockId => id.num + 1)
      (previous.symm.trans id)
    rw [length] at follows
    exact ⟨newId, number.trans follows, follows⟩

theorem previous (replayed : Replayed skip start (block :: chain) state) (blank : start.Blank) :
    block.previous = headId chain ∧ block.blockNum = chain.length + 1 := by
  cases replayed with
  | block earlier _ applied =>
    obtain ⟨id, _, length⟩ := earlier.head blank
    have same := (applyBlock_head applied).1.symm.trans id
    refine ⟨same, ?_⟩
    rw [SignedBlock.blockNum, same, length]

theorem drop (replayed : Replayed skip start (above ++ base) state) :
    ∃ before, Replayed skip start base before := by
  induction above generalizing state with
  | nil => exact ⟨state, replayed⟩
  | cons block above inductionHypothesis =>
    cases replayed with
    | block earlier _ _ => exact inductionHypothesis earlier

theorem id_ne_headId (replayed : Replayed skip start (block :: (above ++ base)) state)
    (blank : start.Blank) : block.id ≠ headId base := by
  intro same
  have number := (replayed.previous blank).2
  obtain ⟨_, lower⟩ : ∃ before, Replayed skip start base before :=
    (show Replayed skip start ((block :: above) ++ base) state from replayed).drop
  have length : block.blockNum = base.length :=
    (congrArg BlockId.num same).trans (lower.head blank).2.2
  rw [number, List.length_append] at length
  omega

theorem append {final : ChainState} (replayed : Replayed skip start chain state)
    (onward : Replayed skip state above final) : Replayed skip start (above ++ chain) final := by
  induction onward with
  | start => exact replayed
  | block earlier next applied inductionHypothesis => exact inductionHypothesis.block next applied

/-- In the first week blocks become irreversible after twenty-one more. -/
theorem irreversible_early (replayed : Replayed skip start chain state) (blank : start.Blank)
    (early : chain.length < 201600) :
    state.dgp.lastIrreversibleBlockNum = chain.length - 21 := by
  induction replayed with
  | start => exact blank.irreversible
  | block earlier next applied inductionHypothesis =>
    rw [List.length_cons] at early ⊢
    have number := (Replayed.block earlier next applied).previous blank |>.2
    rw [applyBlock_irreversible applied, ChainState.irreversibleWith, irreversibleAfter, number,
      if_pos early, inductionHypothesis (by omega)]
    split <;> omega

/-- What is irreversible stays so along a chain. -/
theorem irreversible_le {after : ChainState} (replayed : Replayed skip start chain state)
    (blank : start.Blank) (applied : applyBlock skip false block state = .ok () after) :
    state.dgp.lastIrreversibleBlockNum ≤ after.dgp.lastIrreversibleBlockNum := by
  by_cases early : chain.length + 1 < 201600
  · have whole : Replayed skip start (block :: chain) after := replayed.block block applied
    rw [whole.irreversible_early blank early, replayed.irreversible_early blank (by omega),
      List.length_cons]
    omega
  · have number := ((replayed.block block applied).previous blank).2
    rw [applyBlock_irreversible applied, ChainState.irreversibleWith, irreversibleAfter, number,
      if_neg early]
    exact le_max_left _ _

end Replayed

/-! ### The undo history -/

/-- The undo history holds the states that the newest blocks were applied to, each with the number
of its block. -/
inductive History (skip : SkipFlags) (start : ChainState) :
    List SignedBlock → ChainState → List SavedState → Prop
  | oldest {blocks : List SignedBlock} {state : ChainState}
      (replayed : Replayed skip start blocks state) : History skip start blocks state []
  | newer {blocks : List SignedBlock} {before after : ChainState} {saved : List SavedState}
      (earlier : History skip start blocks before saved) (next : SignedBlock)
      (applied : applyBlock skip false next before = .ok () after) :
      History skip start (next :: blocks) after (⟨next.blockNum, before⟩ :: saved)

namespace History

variable {skip : SkipFlags} {start state : ChainState} {chain : List SignedBlock}
  {saved : List SavedState}

theorem replayed (history : History skip start chain state saved) :
    Replayed skip start chain state := by
  induction history with
  | oldest replayed => exact replayed
  | newer earlier next applied inductionHypothesis => exact inductionHypothesis.block next applied

/-- Discarding the oldest states leaves a history. -/
theorem of_prefix {kept : List SavedState} (history : History skip start chain state saved)
    (part : kept <+: saved) : History skip start chain state kept := by
  induction history generalizing kept with
  | oldest replayed =>
    obtain rfl := List.prefix_nil.mp part
    exact .oldest replayed
  | newer earlier next applied inductionHypothesis =>
    rcases List.prefix_cons_iff.mp part with rfl | ⟨rest, rfl, inside⟩
    · exact .oldest (earlier.replayed.block next applied)
    · exact .newer (inductionHypothesis inside) next applied

/-- The revision of a saved state is the number of the block that was applied to it. -/
theorem revision_of_mem (history : History skip start chain state saved) (blank : start.Blank)
    {place : Nat} (found : saved[place]? = some entry) :
    entry.revision + place = chain.length ∧ place < chain.length := by
  induction history generalizing place with
  | oldest replayed => cases found
  | newer earlier next applied inductionHypothesis =>
    have number := ((earlier.replayed.block next applied).previous blank).2
    rw [List.length_cons]
    cases place with
    | zero =>
      obtain rfl := Option.some.inj found
      exact ⟨number, Nat.succ_pos _⟩
    | succ place =>
      rw [List.getElem?_cons_succ] at found
      obtain ⟨sum, inside⟩ := inductionHypothesis found
      exact ⟨by omega, by omega⟩

/-- Going back along a history. -/
theorem drop (history : History skip start (above ++ base) state saved)
    (enough : above.length ≤ saved.length) :
    ∃ before, History skip start base before (saved.drop above.length) ∧
      Replayed skip before above state := by
  induction above generalizing state saved with
  | nil => exact ⟨state, history, .start⟩
  | cons block above inductionHypothesis =>
    cases history with
    | oldest replayed => exact absurd enough (Nat.not_succ_le_zero _)
    | newer earlier _ applied =>
      obtain ⟨before, base, replayed⟩ := inductionHypothesis earlier (Nat.le_of_succ_le_succ enough)
      exact ⟨before, base, replayed.block block applied⟩

theorem replayed_of_mem (history : History skip start chain state saved) {place : Nat}
    (found : saved[place]? = some entry) :
    Replayed skip start (chain.drop (place + 1)) entry.state := by
  induction history generalizing place with
  | oldest replayed => cases found
  | newer earlier next applied inductionHypothesis =>
    cases place with
    | zero =>
      obtain rfl := Option.some.inj found
      exact earlier.replayed
    | succ place =>
      rw [List.getElem?_cons_succ] at found
      exact inductionHypothesis found

/-- A state of the history is found by the id of its head block. -/
theorem exists_of_headId (history : History skip start (above ++ base) state saved)
    (blank : start.Blank) (member : entry ∈ saved)
    (isHead : entry.state.dgp.headBlockId = headId base) :
    above.length ≤ saved.length ∧ History skip start base entry.state (saved.drop above.length) ∧
      Replayed skip entry.state above state := by
  obtain ⟨place, inside, same⟩ := List.getElem_of_mem member
  have found : saved[place]? = some entry := by rw [List.getElem?_eq_getElem inside, same]
  have replayed := history.replayed_of_mem found
  obtain ⟨id, _, length⟩ := replayed.head blank
  obtain ⟨below, base'⟩ := history.replayed.drop
  have number := (base'.head blank).2.2
  rw [← isHead, id, length, List.length_drop, List.length_append] at number
  have bound := (history.revision_of_mem blank found).2
  rw [List.length_append] at bound
  have exactly : above.length = place + 1 := by omega
  have enough : above.length ≤ saved.length := by omega
  obtain ⟨before, earlier, onward⟩ := history.drop enough
  rw [← exactly, List.drop_left] at replayed
  rw [replayed.unique earlier.replayed]
  exact ⟨enough, earlier, onward⟩

/-- The states of the newest blocks stay when what lies below them is made irreversible. -/
theorem le_length_commit (history : History skip start chain state saved) (blank : start.Blank)
    {count last : Nat} (enough : count ≤ saved.length) (below : last + count ≤ chain.length) :
    count ≤ (saved.rdropWhile fun entry => decide (entry.revision ≤ last)).length := by
  by_contra short
  rw [Nat.not_le] at short
  have whole : (saved.rdropWhile fun entry => decide (entry.revision ≤ last)) ++ _ = saved :=
    List.rdropWhile_append_rtakeWhile
  generalize saved.rdropWhile _ = kept at *
  have dropped : (saved.rtakeWhile fun entry => decide (entry.revision ≤ last)) ≠ [] := by
    intro nothing
    rw [nothing, List.append_nil] at whole
    rw [whole] at short
    omega
  obtain ⟨entry, rest, same⟩ := List.exists_cons_of_ne_nil dropped
  have found : saved[kept.length]? = some entry := by
    rw [← whole, same]
    simp
  obtain ⟨revision, _⟩ := history.revision_of_mem blank found
  have low : entry ∈ saved.rtakeWhile fun entry => decide (entry.revision ≤ last) := by
    rw [same]
    exact List.mem_cons_self
  have committed : entry.revision ≤ last := by simpa using List.mem_rtakeWhile_imp low
  omega

/-- What is left after discarding states is newer than what was discarded. -/
theorem lt_revision_of_commit (history : History skip start chain state saved) (blank : start.Blank)
    {last : Nat} (member : entry ∈ saved.rdropWhile fun entry => decide (entry.revision ≤ last)) :
    last < entry.revision := by
  generalize same : (saved.rdropWhile fun entry => decide (entry.revision ≤ last)) = kept at member
  have part : kept <+: saved := same ▸ List.rdropWhile_prefix _ _
  have full : kept ≠ [] := List.ne_nil_of_mem member
  have oldest : last < (kept.getLast full).revision := by
    subst same
    simpa using List.rdropWhile_last_not _ _ full
  obtain ⟨place, inside, rfl⟩ := List.getElem_of_mem member
  rw [List.getLast_eq_getElem] at oldest
  have revision : ∀ place (inside : place < kept.length),
      kept[place].revision + place = chain.length := fun place inside =>
    ((history.of_prefix part).revision_of_mem blank (List.getElem?_eq_getElem inside)).1
  have := revision place inside
  have := revision (kept.length - 1) (by omega)
  omega

end History

end Zattera
