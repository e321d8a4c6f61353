/-
This file shows what a node answers to the synopsis of a peer. An id of the
synopsis counts when it is zero or that of a block of the node's chain; the lookups
that decide this never fail, since a block is looked up by its number only once it
is known, and a known block is not above the head block. The answer lists the
chain from the last such entry on.
-/

import Zattera.Proof.Lookups

namespace Zattera

open Program

section

variable {skip : SkipFlags} {start : ChainState} {pushed chain : List SignedBlock} {floor : Nat}
  {items : List ForkItem} {node : NodeState} {block : SignedBlock}

/-- The ids of the blocks of a chain, the oldest first. -/
def idsOf (chain : List SignedBlock) : List BlockId := chain.reverse.map SignedBlock.id

theorem mem_idsOf {id : BlockId} : id ∈ idsOf chain ↔ ∃ block ∈ chain, block.id = id := by
  simp only [idsOf, List.mem_map, List.mem_reverse]

theorem length_idsOf (chain : List SignedBlock) : (idsOf chain).length = chain.length := by
  rw [idsOf, List.length_map, List.length_reverse]

/-- The place of a block among the ids goes by its number. -/
theorem idsOf_getElem? (numbered : Numbered chain) (member : block ∈ chain) :
    (idsOf chain)[block.blockNum - 1]? = some block.id := by
  induction chain with
  | nil => cases member
  | cons newest chain inductionHypothesis =>
    have split : idsOf (newest :: chain) = idsOf chain ++ [newest.id] := by
      rw [idsOf, List.reverse_cons, List.map_append]
      rfl
    rw [split]
    rcases List.mem_cons.mp member with rfl | older
    · have place : block.blockNum - 1 = (idsOf chain).length := by
        rw [length_idsOf, numbered.1]
        rfl
      rw [place, List.getElem?_concat_length]
    · have low := numbered.2.num_le older
      have positive : 0 < block.blockNum := Nat.succ_pos _
      rw [List.getElem?_append_left (by rw [length_idsOf]; omega)]
      exact inductionHypothesis numbered.2 older

/-! ### Looking for the synopsis in the chain -/

/-- A block of the chain is known. -/
theorem isKnownBlock_of_mem (retained : Retained chain items node)
    (sound : Sound skip start pushed chain floor node) (member : block ∈ chain) :
    node.isKnownBlock block.id = true := by
  unfold NodeState.isKnownBlock NodeState.fetchBlockById ForkDatabase.fetchBlock
  cases found : node.forkDb.index.find? block.id with
  | some item => rfl
  | none =>
    rw [retained.whole] at member
    rcases List.mem_append.mp member with upper | logged
    · obtain ⟨item, isItem, rfl⟩ := List.mem_map.mp upper
      have known := Table.find?_of_mem (retained.indexed item isItem)
      cases found.symm.trans known
    · have read := readBlockByNum_of_mem sound.coherent.numbered logged
      have same : block.id.num = block.blockNum := rfl
      simp only [same, read, Option.filter_some, decide_true, if_true, Option.isSome_some]

/-- A known block is not above the head block. -/
theorem num_of_isKnownBlock (retained : Retained chain items node)
    (sound : Sound skip start pushed chain floor node) (blank : start.Blank) {id : BlockId}
    (known : node.isKnownBlock id = true) : 1 ≤ id.num ∧ id.num ≤ chain.length := by
  have numbered := sound.coherent.history.replayed.numbered blank
  unfold NodeState.isKnownBlock NodeState.fetchBlockById ForkDatabase.fetchBlock at known
  cases found : node.forkDb.index.find? id with
  | some item =>
    obtain rfl : item.id = id := Table.key_of_find? found
    exact ⟨Nat.succ_pos _, sound.low item (Table.mem_of_find? found)⟩
  | none =>
    simp only [found] at known
    obtain ⟨block, read⟩ := Option.isSome_iff_exists.mp known
    obtain ⟨read, same⟩ := Option.filter_eq_some_iff.mp read
    obtain ⟨logged, _⟩ := mem_of_readBlockByNum read
    obtain rfl := of_decide_eq_true same
    exact ⟨Nat.succ_pos _, numbered.num_le (retained.whole ▸ List.mem_append_right _ logged)⟩

/-- What the lookups by number come to for a node that keeps its chain. -/
def NodeState.Numbers (node : NodeState) (chain : List SignedBlock) : Prop :=
  ∀ block ∈ chain, node.findBlockIdForNum block.blockNum = block.id

theorem getBlockIdForNum_of_mem (numbers : node.Numbers chain) (member : block ∈ chain) :
    node.getBlockIdForNum block.blockNum = .ok block.id := by
  unfold NodeState.getBlockIdForNum
  rw [numbers block member]
  refine except_bind_eq_ok.mpr ⟨(), ensure_eq_ok.mpr fun zero => ?_, rfl⟩
  cases congrArg BlockId.num zero

theorem isIncludedBlock_of_known (numbers : node.Numbers chain) (numbered : Numbered chain)
    {id : BlockId} (range : 1 ≤ id.num ∧ id.num ≤ chain.length) :
    node.isIncludedBlock id = .ok (decide (id ∈ idsOf chain)) := by
  obtain ⟨block, member, number⟩ := numbered.exists_num range.1 range.2
  unfold NodeState.isIncludedBlock
  rw [← number]
  refine except_bind_eq_ok.mpr ⟨_, getBlockIdForNum_of_mem numbers member, ?_⟩
  refine congrArg Except.ok (decide_eq_decide.mpr ⟨fun same => ?_, fun listed => ?_⟩)
  · exact mem_idsOf.mpr ⟨block, member, same.symm⟩
  · obtain ⟨other, isOther, rfl⟩ := mem_idsOf.mp listed
    rw [numbered.eq_of_num member isOther number]

/-- An entry of a synopsis that counts. -/
def CountsIn (chain : List SignedBlock) (id : BlockId) : Bool :=
  decide (id = default ∨ id ∈ idsOf chain)

theorem lastKnownBlockId_eq (numbers : node.Numbers chain) (numbered : Numbered chain)
    (known : ∀ id ∈ idsOf chain, node.isKnownBlock id = true)
    (range : ∀ id, node.isKnownBlock id = true → 1 ≤ id.num ∧ id.num ≤ chain.length)
    (ids : List BlockId) : node.lastKnownBlockId ids = .ok (ids.find? (CountsIn chain)) := by
  induction ids with
  | nil => rfl
  | cons id earlier inductionHypothesis =>
    rw [NodeState.lastKnownBlockId, List.find?_cons]
    by_cases zero : id = default
    · have counts : CountsIn chain id = true := decide_eq_true (.inl zero)
      rw [if_pos zero, counts]
      rfl
    · rw [if_neg zero]
      cases isKnown : node.isKnownBlock id with
      | true =>
        rw [if_pos rfl, isIncludedBlock_of_known numbers numbered (range id isKnown)]
        by_cases listed : id ∈ idsOf chain
        · have counts : CountsIn chain id = true := decide_eq_true (.inr listed)
          rw [counts, decide_eq_true listed]
          rfl
        · have passed : CountsIn chain id = false := decide_eq_false (not_or.mpr ⟨zero, listed⟩)
          rw [passed, decide_eq_false listed]
          exact inductionHypothesis
      | false =>
        have unlisted : id ∉ idsOf chain := by
          intro listed
          rw [known id listed] at isKnown
          cases isKnown
        have passed : CountsIn chain id = false := decide_eq_false (not_or.mpr ⟨zero, unlisted⟩)
        rw [if_neg Bool.false_ne_true, passed]
        exact inductionHypothesis

/-! ### The ids that follow -/

theorem blockIdsFrom_eq (numbers : node.Numbers chain) (numbered : Numbered chain)
    (length : node.headBlockNum = chain.length) {limit left number : Nat} {result : List BlockId}
    (rest : number + left = chain.length + 1) :
    node.blockIdsFrom limit left number result =
      .ok (result ++ ((idsOf chain).drop (number - 1)).take (limit - result.length)) := by
  induction left generalizing number result with
  | zero =>
    have all : (idsOf chain).drop (number - 1) = [] :=
      List.drop_eq_nil_of_le (by rw [length_idsOf]; omega)
    rw [NodeState.blockIdsFrom, all, List.take_nil, List.append_nil]
    rfl
  | succ left inductionHypothesis =>
    rw [NodeState.blockIdsFrom]
    by_cases room : result.length < limit
    · rw [if_pos ⟨by omega, room⟩]
      by_cases positive : 0 < number
      · obtain ⟨block, member, rfl⟩ := numbered.exists_num positive (by omega)
        have place := idsOf_getElem? numbered member
        obtain ⟨inside, isId⟩ := List.getElem?_eq_some_iff.mp place
        rw [if_pos positive, getBlockIdForNum_of_mem numbers member]
        refine (inductionHypothesis (by omega)).trans (congrArg Except.ok ?_)
        have more : limit - result.length = limit - (result ++ [block.id]).length + 1 := by
          rw [List.length_append, List.length_singleton]
          omega
        have next : block.blockNum - 1 + 1 = block.blockNum + 1 - 1 := by omega
        rw [more, ← List.getElem_cons_drop inside, isId, List.take_succ_cons, next,
          List.append_assoc]
        rfl
      · obtain rfl : number = 0 := Nat.eq_zero_of_not_pos positive
        rw [if_neg positive]
        exact inductionHypothesis (by omega)
    · rw [if_neg fun both => room both.2, Nat.sub_eq_zero_of_le (Nat.le_of_not_lt room),
        List.take_zero, List.append_nil]
      rfl

/-- The entry of a synopsis that the answer starts from. -/
def startingEntry (chain : List SignedBlock) (synopsis : List BlockId) : BlockId :=
  (synopsis.reverse.find? (CountsIn chain)).getD default

theorem startingEntry_counts (chain : List SignedBlock) (synopsis : List BlockId) :
    startingEntry chain synopsis = default ∨ startingEntry chain synopsis ∈ idsOf chain := by
  unfold startingEntry
  cases found : synopsis.reverse.find? (CountsIn chain) with
  | none => exact .inl rfl
  | some id => exact of_decide_eq_true (List.find?_some found :)

/-- The answer once the starting entry has been found. -/
theorem getBlockIds_eq (numbers : node.Numbers chain) (numbered : Numbered chain)
    (known : ∀ id ∈ idsOf chain, node.isKnownBlock id = true)
    (range : ∀ id, node.isKnownBlock id = true → 1 ≤ id.num ∧ id.num ≤ chain.length)
    (length : node.headBlockNum = chain.length) (filled : 0 < chain.length)
    (synopsis : List BlockId) (limit : Nat) :
    node.getBlockIds synopsis limit =
      if synopsis ≠ [] ∧ synopsis.reverse.find? (CountsIn chain) = none then .error .unreachableFork
      else
        let ids := ((idsOf chain).drop ((startingEntry chain synopsis).num - 1)).take limit
        .ok (ids, match ids.getLast? with
          | some id => if id.num < node.headBlockNum then node.headBlockNum - id.num else 0
          | none => 0) := by
  have collected (entry : BlockId) (low : entry.num ≤ chain.length) :
      (node.blockIdsFrom limit (node.headBlockNum + 1 - entry.num) entry.num []).mapError
        PeerError.chain = .ok (((idsOf chain).drop (entry.num - 1)).take limit) := by
    rw [blockIdsFrom_eq numbers numbered length (by omega)]
    rfl
  have nonzero : node.headBlockNum ≠ 0 := by omega
  unfold NodeState.getBlockIds
  rw [if_neg nonzero]
  by_cases none : synopsis = [] ∨ synopsis = [default]
  · have entry : startingEntry chain synopsis = default := by
      rcases none with rfl | rfl <;> rfl
    have answered : ¬ (synopsis ≠ [] ∧ synopsis.reverse.find? (CountsIn chain) = .none) := by
      rintro ⟨filled, missing⟩
      obtain rfl := none.resolve_left filled
      cases missing
    rw [if_pos none, if_neg answered, entry]
    exact except_bind_eq_ok.mpr ⟨default, rfl,
      except_bind_eq_ok.mpr ⟨_, collected default (Nat.zero_le _), rfl⟩⟩
  · rw [if_neg none, lastKnownBlockId_eq numbers numbered known range]
    cases found : synopsis.reverse.find? (CountsIn chain) with
    | none =>
      rw [if_pos ⟨fun empty => none (.inl empty), rfl⟩]
      rfl
    | some id =>
      have entry : startingEntry chain synopsis = id := by
        rw [startingEntry, found]
        rfl
      have low : id.num ≤ chain.length := by
        rcases entry ▸ startingEntry_counts chain synopsis with rfl | listed
        · exact Nat.zero_le _
        · exact (range id (known id listed)).2
      have answered : ¬ (synopsis ≠ [] ∧ some id = .none) := fun both => Option.some_ne_none _ both.2
      rw [if_neg answered, entry]
      exact except_bind_eq_ok.mpr ⟨some id, rfl, except_bind_eq_ok.mpr ⟨id, rfl,
        except_bind_eq_ok.mpr ⟨_, collected id low, rfl⟩⟩⟩

/-- The numbers of consecutive ids of a chain. -/
theorem num_getLast? (numbered : Numbered chain) {place limit : Nat} {id : BlockId}
    (isLast : (((idsOf chain).drop place).take limit).getLast? = some id) :
    id.num = place + (((idsOf chain).drop place).take limit).length := by
  have filled := List.length_pos_of_mem (List.mem_of_mem_getLast? isLast)
  have inside : place + ((((idsOf chain).drop place).take limit).length - 1) < chain.length := by
    rw [List.length_take, List.length_drop, length_idsOf] at filled ⊢
    omega
  obtain ⟨block, member, number⟩ := numbered.exists_num (Nat.succ_pos _) inside
  have listed := idsOf_getElem? numbered member
  rw [number, Nat.succ_eq_add_one, Nat.add_sub_cancel] at listed
  rw [List.getLast?_eq_getElem?, List.getElem?_take_of_lt, List.getElem?_drop, listed] at isLast
  · obtain rfl := Option.some.inj isLast
    change block.blockNum = _
    omega
  · rw [List.length_take] at filled ⊢
    omega

theorem remaining_eq (numbered : Numbered chain) (length : node.headBlockNum = chain.length)
    {place limit : Nat} (inside : place < chain.length) (room : 1 ≤ limit) :
    (match (((idsOf chain).drop place).take limit).getLast? with
      | some id => if id.num < node.headBlockNum then node.headBlockNum - id.num else 0
      | none => 0) =
      ((idsOf chain).drop (place + (((idsOf chain).drop place).take limit).length)).length := by
  have count : (((idsOf chain).drop place).take limit).length = min limit (chain.length - place) := by
    rw [List.length_take, List.length_drop, length_idsOf]
  have filled : ((idsOf chain).drop place).take limit ≠ [] :=
    List.ne_nil_of_length_pos (by omega)
  have isLast := List.getLast?_eq_some_getLast filled
  have number := num_getLast? numbered isLast
  rw [isLast, List.length_drop, length_idsOf, ← number, length]
  dsimp only
  split <;> omega

end

/-- In a run of calm steps that leave room for going back, a node with some block answers a synopsis
unless it lists ids and none of them counts. The answer starts at the last entry that counts, or at
the first block when there is none or it is zero, and says how many blocks come after it. -/
theorem blockIds_of_synopsis {liquid dollar : ShareType} {skip : SkipFlags}
    {pushed : List SignedBlock} {node : NodeState} (inUse : skip.forkDb = false)
    (logging : skip.blockLog = false) (checked : skip.undoHistoryCheck = false)
    (run : RoomyRun skip (initGenesis liquid dollar) pushed node)
    (distinct : ∀ first ∈ pushed, ∀ second ∈ pushed, first.id = second.id → first = second)
    (filled : 0 < node.headBlockNum) (synopsis : List BlockId) {limit : Nat} (room : 1 ≤ limit) :
    ∃ chain, Replayed skip (initGenesis liquid dollar) chain node.state ∧
      ((∃ error, node.getBlockIds synopsis limit = .error error) ↔
        synopsis ≠ [] ∧ ∀ id ∈ synopsis, id ≠ default ∧ id ∉ idsOf chain) ∧
      ∀ ids remaining, node.getBlockIds synopsis limit = .ok (ids, remaining) →
        let entry := startingEntry chain synopsis
        ids = ((idsOf chain).drop (entry.num - 1)).take limit ∧
          (entry ≠ default → ids.head? = some entry) ∧
          remaining = ((idsOf chain).drop (entry.num - 1 + ids.length)).length := by
  have blank := blank_initGenesis liquid dollar
  obtain ⟨chain, floor, items, sound, retained⟩ := run.retained blank inUse logging distinct
  have replayed := sound.coherent.history.replayed
  have numbered := replayed.numbered blank
  have length := sound.coherent.headBlockNum blank
  have numbers : node.Numbers chain := fun block member =>
    findBlockIdForNum_of_mem retained sound blank rfl logging checked member
  have known : ∀ id ∈ idsOf chain, node.isKnownBlock id = true := by
    intro id listed
    obtain ⟨block, member, rfl⟩ := mem_idsOf.mp listed
    exact isKnownBlock_of_mem retained sound member
  have range : ∀ id, node.isKnownBlock id = true → 1 ≤ id.num ∧ id.num ≤ chain.length :=
    fun _ isKnown => num_of_isKnownBlock retained sound blank isKnown
  have answer := getBlockIds_eq numbers numbered known range length (by omega) synopsis limit
  have missing : synopsis.reverse.find? (CountsIn chain) = none ↔
      ∀ id ∈ synopsis, id ≠ default ∧ id ∉ idsOf chain := by
    rw [List.find?_eq_none]
    refine forall_congr' fun id => ?_
    rw [List.mem_reverse, CountsIn, decide_eq_true_iff, not_or]
  refine ⟨chain, replayed, ?_, ?_⟩
  · rw [answer, ← missing]
    split
    next unreachable => exact ⟨fun _ => unreachable, fun _ => ⟨_, rfl⟩⟩
    next reachable =>
      refine ⟨fun ⟨error, failed⟩ => ?_, fun unreachable => absurd unreachable reachable⟩
      cases failed
  · intro ids remaining answered
    rw [answer] at answered
    split at answered
    next => cases answered
    next reachable =>
      obtain ⟨rfl, rfl⟩ := Prod.mk.inj (Except.ok.inj answered)
      have inside : (startingEntry chain synopsis).num - 1 < chain.length := by
        rcases startingEntry_counts chain synopsis with zero | listed
        · rw [zero, ← length]
          exact filled
        · have := range _ (known _ listed)
          omega
      refine ⟨rfl, fun nonzero => ?_, remaining_eq numbered length inside room⟩
      obtain ⟨block, member, isEntry⟩ :=
        mem_idsOf.mp ((startingEntry_counts chain synopsis).resolve_left nonzero)
      rw [List.head?_take, if_neg (by omega), List.head?_drop, ← isEntry]
      exact idsOf_getElem? numbered member

/-- The node that has switched passes over the id of the block it has left. -/
theorem nodeSwitched_blockIds :
    let synopsis := [default, forkRoot.id, forkLeft.id]
    nodeSwitched.getBlockIds synopsis 1 = .ok ([forkRoot.id], 2) ∧
      ∃ chain, Replayed {} genesis chain nodeSwitched.state ∧
        let entry := startingEntry chain synopsis
        [forkRoot.id] = ((idsOf chain).drop (entry.num - 1)).take 1 ∧
          (entry ≠ default → [forkRoot.id].head? = some entry) ∧
          2 = ((idsOf chain).drop (entry.num - 1 + 1)).length := by
  intro synopsis
  have answered : nodeSwitched.getBlockIds synopsis 1 = .ok ([forkRoot.id], 2) := by decide +kernel
  obtain ⟨chain, replayed, _, given⟩ := @blockIds_of_synopsis _ _ {} _ _ rfl rfl rfl
    roomyRun_nodeSwitched (by decide +kernel) (by decide +kernel) synopsis 1 (Nat.le_refl 1)
  exact ⟨answered, chain, replayed, given _ _ answered⟩

/-- Blocks on top of one another, each the second of its height. -/
def twinBlocks (previous : BlockId) : Nat → List SignedBlock
  | 0 => []
  | count + 1 =>
    let block := (genesisBlock previous []).twin
    block :: twinBlocks block.id count

/-- Five blocks, and on top of the first one a longer branch whose first block is spoiled. -/
def nodeWentBack : NodeState :=
  let spoiled := forkLeft.twin.spoiled
  (NodeState.opened genesis).fed {} (forkRoot :: genesisBlocks forkRoot.id [] 4 ++
    spoiled :: twinBlocks spoiled.id 4)

/-- While the node went back to its own branch, the fork database let go of the first block, which
is in no log yet. A peer that names it is told that its fork is unreachable. -/
theorem nodeWentBack_loses_first :
    nodeWentBack.headBlockNum = 5 ∧ nodeWentBack.findBlockIdForNum 1 = forkRoot.id ∧
      nodeWentBack.isKnownBlock forkRoot.id = false ∧
      nodeWentBack.getBlockIds [forkRoot.id] 10 = .error .unreachableFork := by
  decide +kernel

end Zattera
