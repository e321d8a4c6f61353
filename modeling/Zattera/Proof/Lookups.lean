/-
This file shows what a node finds when it looks a block up by its number. The
summaries hold the ids of the last 65536 blocks, and what is further back than
ten thousand blocks is in the block log; so in a node that keeps the blocks of its
chain, the id of every block is found. The block itself is looked for in the fork
database first, which is where competing blocks of one height get in the way.
-/

import Zattera.Node.Peer
import Zattera.Proof.Phases
import Zattera.Proof.Retention

namespace Zattera

open Program

set_option synthInstance.maxSize 1024

/-! ### The summaries of recent blocks -/

section Summaries

variable {s t : ChainState} {u : Unit} {skip : SkipFlags} {producing : Bool} {block : SignedBlock}

theorem summaries_of_within {α : Type} {x : Chain α} (footprint : List Part)
    [within : Respects (Within footprint) x] (aside : Part.blockSummaries ∉ footprint) :
    Respects (Same ChainState.blockSummaries) x :=
  within.mono fun _ _ same => same .blockSummaries aside

instance (op : Operation) : Respects (Same ChainState.blockSummaries) (applyOperation producing op) :=
  summaries_of_within op.footprint (by cases op <;> exact of_decide_eq_true rfl)

theorem summaries_blockStep (step : BlockStep) (aside : Part.blockSummaries ∉ step.footprint) :
    Respects (Same ChainState.blockSummaries) step.run :=
  summaries_of_within step.footprint aside

instance (trx : SignedTransaction) :
    Respects (Same ChainState.blockSummaries) (insertTransaction trx) :=
  respects_create fun _ _ _ => rfl

instance (trx : SignedTransaction) :
    Respects (Same ChainState.blockSummaries) (applyTransaction skip producing trx) := by
  dsimp only [applyTransaction]
  infer_instance

/-- A block writes its own summary over that of the block 65536 below it. -/
theorem applyBlock_summaries (run : applyBlock skip producing block s = .ok u t) :
    t.blockSummaries = (block.blockNum % 65536, block.id) ::
      s.blockSummaries.filter fun entry => decide (entry.1 ≠ block.blockNum % 65536) := by
  have opened : Respects (Same ChainState.blockSummaries) (openBlock skip producing block) := by
    have applied : Respects (Same ChainState.blockSummaries)
        (forM block.transactions (applyTransaction skip producing)) :=
      respects_forM_mem fun _ _ => inferInstance
    have produced := summaries_blockStep (.currentWitness block) (of_decide_eq_true rfl)
    have extensions := summaries_blockStep (.headerExtensions block)
      (of_decide_eq_true rfl)
    have global := summaries_blockStep (.globalDynamicData skip block)
      (of_decide_eq_true rfl)
    have signing (name : AccountName) := summaries_blockStep (.signingWitness name block)
      (of_decide_eq_true rfl)
    have irreversible := summaries_blockStep .lastIrreversibleNum (of_decide_eq_true rfl)
    dsimp only [BlockStep.run] at produced extensions global signing irreversible
    dsimp only [openBlock, applyBlockTransactions]
    infer_instance
  have later : Respects (Same ChainState.blockSummaries)
      (forM (maintenance block).tail BlockStep.run) :=
    respects_forM_mem fun step member => summaries_blockStep step (by
      simp only [maintenance, List.tail_cons, List.mem_cons, List.not_mem_nil, or_false] at member
      rcases member with rfl | rfl | rfl | rfl | rfl | rfl | rfl | rfl | rfl | rfl | rfl | rfl |
        rfl | rfl | rfl | rfl <;> exact of_decide_eq_true rfl)
  have hardforks : Respects (Same ChainState.blockSummaries) processHardforks := by
    dsimp only [processHardforks]
    infer_instance
  rw [applyBlock_eq_steps] at run
  obtain ⟨_, first, before, run⟩ := bind_eq_ok.mp run
  obtain ⟨_, second, maintained, ended⟩ := bind_eq_ok.mp run
  change forM (BlockStep.blockSummary block :: (maintenance block).tail) BlockStep.run first = _
    at maintained
  rw [List.forM_cons] at maintained
  obtain ⟨_, _, written, rest⟩ := bind_eq_ok.mp maintained
  obtain rfl := modify_eq_ok.mp written
  have same : first.blockSummaries = s.blockSummaries := opened.related _ _ _ before
  rw [← same]
  exact (hardforks.related _ _ _ ended).trans (later.related _ _ _ rest)

/-- A block is applied only while what is irreversible is not too far below it. -/
theorem applyBlock_undoHistory (run : applyBlock skip producing block s = .ok u t)
    (checked : skip.undoHistoryCheck = false) :
    block.blockNum - s.dgp.lastIrreversibleBlockNum < 10000 := by
  obtain ⟨_, first, started, _⟩ := bind_eq_ok.mp run
  obtain ⟨_, _, _, _, _, _, clock⟩ := applyBlockTransactions_clock started
  have head : first.dgp.head = _ := congrArg Clock.head clock
  unfold applyBlockTransactions at started
  -- the check comes after the transactions, at the end of `update_global_dynamic_data`
  iterate 10 obtain ⟨_, _, _, started⟩ := bind_eq_ok.mp started
  obtain ⟨_, moved, global, signed⟩ := bind_eq_ok.mp started
  have same : first.dgp.head = moved.dgp.head :=
    congrArg Clock.head (updateSigningWitness_clock signed)
  simp only [updateGlobalDynamicData, bind_eq_ok, get_eq_ok, modify_eq_ok, require_eq_ok] at global
  obtain ⟨_, _, _, _, _, _, _, written, _, _, _, ⟨rfl, rfl⟩, recent, rfl⟩ := global
  rw [head] at same
  have number : block.blockNum = written.dgp.headBlockNumber := congrArg HeadBlock.number same
  have last : s.dgp.lastIrreversibleBlockNum = written.dgp.lastIrreversibleBlockNum :=
    congrArg HeadBlock.lastIrreversible same
  rw [number, last]
  refine recent.resolve_left fun skipped => ?_
  rw [checked] at skipped
  cases skipped

end Summaries

theorem lookup_filter_ne {Value : Type} {entries : List (Nat × Value)} {place other : Nat}
    (apart : other ≠ place) :
    (entries.filter fun entry => decide (entry.1 ≠ place)).lookup other = entries.lookup other := by
  induction entries with
  | nil => rfl
  | cons entry entries inductionHypothesis =>
    rw [List.lookup_cons]
    by_cases gone : entry.1 = place
    · rw [List.filter_cons_of_neg (by simpa using gone), inductionHypothesis,
        beq_false_of_ne (gone ▸ apart)]
    · rw [List.filter_cons_of_pos (by simpa using gone), List.lookup_cons, inductionHypothesis]

/-- The summary in a place is that of the newest block that belongs there. -/
theorem blockSummary_of_replayed {skip : SkipFlags} {start state : ChainState}
    {chain : List SignedBlock} (replayed : Replayed skip start chain state)
    (empty : start.blockSummaries = []) (place : Nat) :
    state.blockSummary place =
      ((chain.find? fun block => decide (block.blockNum % 65536 = place)).map
        SignedBlock.id).getD default := by
  induction replayed with
  | start =>
    rw [ChainState.blockSummary, empty]
    rfl
  | block earlier next applied inductionHypothesis =>
    rw [ChainState.blockSummary, applyBlock_summaries applied, List.lookup_cons, List.find?_cons]
    by_cases own : next.blockNum % 65536 = place
    · rw [beq_iff_eq.mpr own.symm, decide_eq_true own]
      rfl
    · rw [beq_false_of_ne (Ne.symm own), decide_eq_false own, lookup_filter_ne (Ne.symm own)]
      exact inductionHypothesis

/-! ### Blocks of a chain and their numbers -/

namespace Numbered

variable {chain : List SignedBlock} {block other : SignedBlock}

theorem eq_of_num (numbered : Numbered chain) (member : block ∈ chain) (isOther : other ∈ chain)
    (same : block.blockNum = other.blockNum) : block = other := by
  induction chain with
  | nil => cases member
  | cons newest chain inductionHypothesis =>
    rcases List.mem_cons.mp member with rfl | older
    · rcases List.mem_cons.mp isOther with rfl | otherOlder
      · rfl
      · have low := numbered.2.num_le otherOlder
        have high := numbered.1
        omega
    · rcases List.mem_cons.mp isOther with rfl | otherOlder
      · have low := numbered.2.num_le older
        have high := numbered.1
        omega
      · exact inductionHypothesis numbered.2 older otherOlder

theorem exists_num (numbered : Numbered chain) {number : Nat} (positive : 1 ≤ number)
    (low : number ≤ chain.length) : ∃ block ∈ chain, block.blockNum = number := by
  induction chain with
  | nil =>
    rw [List.length_nil] at low
    omega
  | cons newest chain inductionHypothesis =>
    by_cases isNewest : number = chain.length + 1
    · exact ⟨newest, List.mem_cons_self, numbered.1.trans isNewest.symm⟩
    · rw [List.length_cons] at low
      obtain ⟨block, member, isNumber⟩ := inductionHypothesis numbered.2 (by omega)
      exact ⟨block, List.mem_cons_of_mem _ member, isNumber⟩

/-- What is found first is the newest. -/
theorem exists_find (numbered : Numbered chain) (wanted : SignedBlock → Bool)
    (member : block ∈ chain) (isWanted : wanted block) :
    ∃ newest ∈ chain, chain.find? wanted = some newest ∧ block.blockNum ≤ newest.blockNum := by
  induction chain with
  | nil => cases member
  | cons newest chain inductionHypothesis =>
    cases atTop : wanted newest with
    | true =>
      refine ⟨newest, List.mem_cons_self, List.find?_cons_of_pos atTop, ?_⟩
      exact (numbered.num_le member).trans_eq numbered.1.symm
    | false =>
      have older : block ∈ chain := by
        rcases List.mem_cons.mp member with rfl | older
        · rw [isWanted] at atTop
          cases atTop
        · exact older
      obtain ⟨found, isFound, result, above⟩ := inductionHypothesis numbered.2 older
      refine ⟨found, List.mem_cons_of_mem _ isFound, ?_, above⟩
      rw [List.find?_cons_of_neg (by rw [atTop]; exact Bool.false_ne_true), result]

end Numbered

/-! ### Lookups by number -/

section Lookups

variable {skip : SkipFlags} {start : ChainState} {pushed chain : List SignedBlock} {floor : Nat}
  {items : List ForkItem} {node : NodeState} {block : SignedBlock}

theorem readBlockByNum_of_mem (numbered : Numbered node.blockLog) (member : block ∈ node.blockLog) :
    node.readBlockByNum block.blockNum = some block := by
  obtain ⟨found, isFound, result, _⟩ := numbered.exists_find
    (fun other => decide (other.blockNum = block.blockNum)) member (decide_eq_true rfl)
  have same : found.blockNum = block.blockNum := by simpa using List.find?_some result
  rw [NodeState.readBlockByNum, result, numbered.eq_of_num isFound member same]

theorem mem_of_readBlockByNum {number : Nat} (found : node.readBlockByNum number = some block) :
    block ∈ node.blockLog ∧ block.blockNum = number :=
  ⟨List.mem_of_find?_eq_some found, by simpa using List.find?_some found⟩

theorem Retained.mem_log (retained : Retained chain items node) (numbered : Numbered chain)
    (member : block ∈ chain) (low : block.blockNum ≤ node.blockLog.length) :
    block ∈ node.blockLog := by
  have whole := retained.whole
  rw [whole] at member numbered
  refine (List.mem_append.mp member).resolve_left fun upper => ?_
  have high := numbered.lt_num upper
  omega

/-- What is not among the last ten thousand blocks is in the log. -/
theorem Sound.deep_logged (sound : Sound skip start pushed chain floor node) (blank : start.Blank)
    (logging : skip.blockLog = false) (checked : skip.undoHistoryCheck = false) :
    chain.length ≤ node.blockLog.length + 10000 := by
  have replayed := sound.coherent.history.replayed
  have irreversible := sound.coherent.irreversible.trans (sound.coherent.logged logging)
  cases chain with
  | nil => exact Nat.zero_le _
  | cons newest chain =>
    have number := (replayed.previous blank).2
    cases replayed with
    | block earlier _ applied =>
      have recent := applyBlock_undoHistory applied checked
      have grows := earlier.irreversible_le blank applied
      rw [List.length_cons]
      omega

/-- The id of every block of the chain is found by its number. -/
theorem findBlockIdForNum_of_mem (retained : Retained chain items node)
    (sound : Sound skip start pushed chain floor node) (blank : start.Blank)
    (empty : start.blockSummaries = []) (logging : skip.blockLog = false)
    (checked : skip.undoHistoryCheck = false) (member : block ∈ chain) :
    node.findBlockIdForNum block.blockNum = block.id := by
  have replayed := sound.coherent.history.replayed
  have numbered := replayed.numbered blank
  obtain ⟨newest, isNewest, found, above⟩ := numbered.exists_find
    (fun other => decide (other.blockNum % 65536 = block.blockNum % 65536)) member
    (decide_eq_true rfl)
  have summary : node.state.blockSummary (block.blockNum % 65536) = newest.id := by
    rw [blockSummary_of_replayed replayed empty, found]
    rfl
  have samePlace : newest.blockNum % 65536 = block.blockNum % 65536 := by
    simpa using List.find?_some found
  have positive : block.blockNum ≠ 0 := Nat.succ_ne_zero _
  simp only [NodeState.findBlockIdForNum, if_neg positive, summary]
  by_cases own : newest.id.num = block.blockNum
  · rw [if_pos own, numbered.eq_of_num isNewest member own]
  · have deep := sound.deep_logged blank logging checked
    have most := numbered.num_le isNewest
    have apart : newest.blockNum ≠ block.blockNum := own
    have low : block.blockNum ≤ node.blockLog.length := by omega
    rw [if_neg own, readBlockByNum_of_mem sound.coherent.numbered
      (retained.mem_log numbered member low)]

/-- Nothing is found above the head block. -/
theorem lookups_above (retained : Retained chain items node)
    (sound : Sound skip start pushed chain floor node) (blank : start.Blank)
    (empty : start.blockSummaries = []) {number : Nat} (high : chain.length < number) :
    node.findBlockIdForNum number = default ∧ node.fetchBlockByNumber number = none := by
  have replayed := sound.coherent.history.replayed
  have numbered := replayed.numbered blank
  have unsummed : (node.state.blockSummary (number % 65536)).num ≠ number := by
    rw [blockSummary_of_replayed replayed empty]
    cases found : chain.find? fun block => decide (block.blockNum % 65536 = number % 65536) with
    | none => exact (Nat.zero_lt_of_lt high).ne
    | some newest => exact ((numbered.num_le (List.mem_of_find?_eq_some found)).trans_lt high).ne
  have unlogged : node.readBlockByNum number = none := by
    refine List.find?_eq_none.mpr fun block member same => ?_
    have low := numbered.num_le (retained.whole ▸ List.mem_append_right _ member : block ∈ chain)
    exact (low.trans_lt high).ne (of_decide_eq_true same)
  have unknown : node.forkDb.fetchBlockByNumber number = [] := by
    refine List.filter_eq_nil_iff.mpr fun item member same => ?_
    exact ((sound.low item member).trans_lt high).ne (of_decide_eq_true same)
  constructor
  · simp only [NodeState.findBlockIdForNum, if_neg (Nat.zero_lt_of_lt high).ne', if_neg unsummed,
      unlogged, ForkDatabase.fetchBlockOnMainBranchByNumber, unknown]
    rfl
  · rw [NodeState.fetchBlockByNumber, unknown]
    exact unlogged

/-- The fork database has one block of that number, the one whose id the number leads to, or it has
none or several and the block is in the log. -/
def NodeState.Singles (node : NodeState) (number : Nat) : Prop :=
  (∃ item, node.forkDb.fetchBlockByNumber number = [item] ∧
      item.id = node.findBlockIdForNum number) ∨
    (node.forkDb.fetchBlockByNumber number).length ≠ 1 ∧ number ≤ node.logHeadNum

theorem fetchBlockByNumber_iff (retained : Retained chain items node)
    (sound : Sound skip start pushed chain floor node) (blank : start.Blank)
    (distinct : ∀ first ∈ pushed, ∀ second ∈ pushed, first.id = second.id → first = second)
    (member : block ∈ chain) (isId : node.findBlockIdForNum block.blockNum = block.id) :
    node.fetchBlockByNumber block.blockNum = some block ↔ node.Singles block.blockNum := by
  have numbered := sound.coherent.history.replayed.numbered blank
  unfold NodeState.Singles NodeState.fetchBlockByNumber
  rw [isId, sound.coherent.numbered.logHeadNum]
  split
  · next item single =>
    have known : item ∈ node.forkDb.index :=
      List.mem_of_mem_filter (single ▸ List.mem_cons_self : item ∈ node.forkDb.fetchBlockByNumber _)
    constructor
    · intro same
      exact .inl ⟨item, single, congrArg SignedBlock.id (Option.some.inj same)⟩
    · rintro (⟨other, same, sameId⟩ | ⟨several, _⟩)
      · obtain rfl := (List.cons.inj (single.symm.trans same)).1
        exact congrArg some (distinct item.data
          (sound.items item (ForkDatabase.mem_items.mpr (.inl known))) block
          (sound.blocks block member) sameId)
      · rw [single] at several
        exact absurd rfl several
  · next other =>
    have several : (node.forkDb.fetchBlockByNumber block.blockNum).length ≠ 1 := by
      intro one
      obtain ⟨item, single⟩ := List.length_eq_one_iff.mp one
      exact other item single
    constructor
    · intro found
      exact .inr ⟨several, sound.coherent.numbered.num_le (mem_of_readBlockByNum found).1⟩
    · rintro (⟨item, single, _⟩ | ⟨_, low⟩)
      · exact absurd single (other item)
      · exact readBlockByNum_of_mem sound.coherent.numbered (retained.mem_log numbered member low)

end Lookups

/-- In a run of calm steps that leave room for going back, every number up to the head block's leads
to the id of the chain's block, and to the block itself exactly when the fork database does not
stand in the way; nothing is found above the head block. -/
theorem blocks_by_number {liquid dollar : ShareType} {skip : SkipFlags}
    {pushed : List SignedBlock} {node : NodeState} (inUse : skip.forkDb = false)
    (logging : skip.blockLog = false) (checked : skip.undoHistoryCheck = false)
    (run : RoomyRun skip (initGenesis liquid dollar) pushed node)
    (distinct : ∀ first ∈ pushed, ∀ second ∈ pushed, first.id = second.id → first = second) :
    ∃ chain, Replayed skip (initGenesis liquid dollar) chain node.state ∧
      chain.length = node.headBlockNum ∧
      (∀ number, 1 ≤ number → number ≤ node.headBlockNum →
        ∃ block ∈ chain, block.blockNum = number ∧ node.findBlockIdForNum number = block.id ∧
          (node.fetchBlockByNumber number = some block ↔ node.Singles number)) ∧
      ∀ number, node.headBlockNum < number →
        node.findBlockIdForNum number = default ∧ node.fetchBlockByNumber number = none := by
  have blank := blank_initGenesis liquid dollar
  obtain ⟨chain, floor, items, sound, retained⟩ := run.retained blank inUse logging distinct
  have replayed := sound.coherent.history.replayed
  have length := sound.coherent.headBlockNum blank
  refine ⟨chain, replayed, length.symm, fun number positive low => ?_, fun number high => ?_⟩
  · obtain ⟨block, member, rfl⟩ :=
      (replayed.numbered blank).exists_num positive (low.trans_eq length)
    have isId := findBlockIdForNum_of_mem retained sound blank rfl logging checked member
    exact ⟨block, member, rfl, isId,
      fetchBlockByNumber_iff retained sound blank distinct member isId⟩
  · exact lookups_above retained sound blank rfl (length.symm.trans_lt high)

/-- A node that has switched to the second of two blocks on top of one. -/
def nodeSwitched : NodeState :=
  Node.left (Node.pushBlock {} (genesisBlock forkLeft.twin.id [])) nodeForked

theorem roomyRun_nodeSwitched : RoomyRun {} genesis
    [genesisBlock forkLeft.twin.id [], forkLeft.twin, forkLeft, forkRoot] nodeSwitched := by
  unfold nodeSwitched nodeForked
  refine .push (.push (.push (.push .opened (.follows ?_ ?_ ?_) ?_) (.follows ?_ ?_ ?_) ?_)
    (.stored ?_ ?_) ?_) (.branches ?_ ?_ ?_ ?_) ?_
  all_goals decide +kernel

/-- Its second block is the second of the two. -/
theorem nodeSwitched_by_number :
    nodeSwitched.headBlockNum = 3 ∧ ∃ block, block.blockNum = 2 ∧ block.id = forkLeft.twin.id ∧
      nodeSwitched.findBlockIdForNum 2 = block.id ∧
      (nodeSwitched.fetchBlockByNumber 2 = some block ↔ nodeSwitched.Singles 2) := by
  have head : nodeSwitched.headBlockNum = 3 := by decide +kernel
  have isTwin : nodeSwitched.findBlockIdForNum 2 = forkLeft.twin.id := by decide +kernel
  obtain ⟨chain, _, _, below, _⟩ := @blocks_by_number _ _ {} _ _ rfl rfl rfl
    roomyRun_nodeSwitched (by decide +kernel)
  obtain ⟨block, _, number, found, fetched⟩ := below 2 (by decide) (head ▸ by decide)
  exact ⟨head, block, number, found.symm.trans isTwin, found, fetched⟩

/-- A node with two blocks of the height of its head block does not find either by the number. -/
theorem nodeForked_not_by_number :
    nodeForked.headBlockNum = 2 ∧ nodeForked.headBlockId = forkLeft.id ∧
      nodeForked.findBlockIdForNum 2 = forkLeft.id ∧ nodeForked.fetchBlockByNumber 2 = none := by
  decide +kernel

end Zattera
