/-
This file follows the clock of the chain: the number, id and time of the head
block, the last irreversible block, the transactions that are remembered, the
witness schedule, and the last block each witness has confirmed. No operation
moves any of them, and of the steps of a block each moves at most the part of the
clock it is there for.
-/

import Zattera.Proof.Footprint

namespace Zattera

open Program

set_option synthInstance.maxSize 4096

variable {block : SignedBlock} {skip : SkipFlags}

/-! ### The clock -/

/-- What the global properties say of the head block and of irreversibility. -/
structure HeadBlock where
  number : Nat
  id : BlockId
  time : TimePointSec
  lastIrreversible : Nat

def DynamicGlobalProperties.head (dgp : DynamicGlobalProperties) : HeadBlock :=
  ⟨dgp.headBlockNumber, dgp.headBlockId, dgp.time, dgp.lastIrreversibleBlockNum⟩

/-- The number of the last block a witness has produced, or zero. -/
def ChainState.confirmed (state : ChainState) (name : AccountName) : Nat :=
  ((state.witnesses.find? name).map Witness.lastConfirmedBlockNum).getD 0

/-- What no operation changes. -/
structure Clock where
  head : HeadBlock
  transactions : Table TransactionId TransactionObject TransactionObject.trxId
  schedule : WitnessSchedule
  confirmed : AccountName → Nat

def ChainState.clock (state : ChainState) : Clock :=
  ⟨state.dgp.head, state.transactions, state.witnessSchedule, state.confirmed⟩

/-- The part of the clock that only a block moves: its head and what its witness confirms. -/
def ChainState.pulse (state : ChainState) : HeadBlock × (AccountName → Nat) :=
  (state.dgp.head, state.confirmed)

/-! ### What the clock does not show -/

abbrev Part.unclocked : List Part :=
  [.accounts, .accountAuthorities, .witnessVotes, .feedHistory, .comments, .nextCommentId,
    .commentContents, .commentVotes, .limitOrders, .convertRequests, .escrows, .savingsWithdraws,
    .withdrawRoutes, .vestingDelegations, .delegationExpirations, .nextExpirationId,
    .ownerHistories, .nextHistoryId, .recoveryRequests, .changeRecoveryRequests, .declineRequests,
    .rewardFunds, .blockSummaries, .hardforks]

abbrev Aspect.unclocked : List Aspect :=
  [.owners, .part .witnesses, .witness .votes, .witness .lap, .witness .schedule, .witness .price,
    .witness .record, .global .producer, .global .slots] ++ Aspect.totals

theorem head_of_facets {s t : ChainState}
    (head : Faceted.only .head t.dgp = Faceted.only .head s.dgp)
    (irreversible : Faceted.only .irreversible t.dgp = Faceted.only .irreversible s.dgp) :
    t.dgp.head = s.dgp.head :=
  (congrArg₂ (fun head irreversible : DynamicGlobalProperties => HeadBlock.mk head.headBlockNumber
    head.headBlockId head.time irreversible.lastIrreversibleBlockNum) head irreversible :)

theorem confirmed_eq_facet (state : ChainState) (name : AccountName) :
    state.confirmed name = (state.witnesses.facetOf .confirmed name).lastConfirmedBlockNum := by
  unfold ChainState.confirmed Table.facetOf
  cases state.witnesses.find? name <;> rfl

instance : Overlooks (Same ChainState.pulse) (Either (Covered Part.unclocked)
    (Among (.part .transactions :: .part .witnessSchedule :: Aspect.unclocked))) where
  holds {s t} same := by
    have confirmed : t.witnesses.facetOf .confirmed = _ := same (.witness .confirmed) (by decide)
    refine Prod.ext (head_of_facets (same (.global .head) (by decide))
      (same (.global .irreversible) (by decide))) (funext fun name => ?_)
    exact (confirmed_eq_facet t name).trans (by rw [confirmed, ← confirmed_eq_facet]; rfl)

instance : Overlooks (Same ChainState.clock) (Either (Covered Part.unclocked)
    (Among Aspect.unclocked)) where
  holds {s t} same := by
    have pulse : Same ChainState.pulse s t := Overlooks.holds fun aspect seen => same aspect
      fun aside => seen (aside.imp id fun listed => .tail _ (.tail _ listed))
    obtain ⟨head, confirmed⟩ := Prod.mk.inj pulse
    have transactions : t.transactions = s.transactions := same (.part .transactions) (by decide)
    have schedule : t.witnessSchedule = s.witnessSchedule := same (.part .witnessSchedule) (by decide)
    change ChainState.clock t = ChainState.clock s
    unfold ChainState.clock
    rw [head, transactions, schedule, confirmed]

/-- No operation moves the clock. -/
instance sameClock_applyOperation (producing : Bool) (op : Operation) :
    Respects (Same ChainState.clock) (applyOperation producing op) := by
  refine respects_of_aspects (beside_applyOperation producing op) ?_
  cases op <;> exact of_decide_eq_true rfl

/-- A program that leaves the clock alone leaves every part of it alone. -/
instance (priority := low) {α : Type} (x : Chain α) [kept : Respects (Same ChainState.clock) x] :
    Respects (Same ChainState.pulse) x :=
  kept.mono fun _ _ same => congrArg (fun clock : Clock => (clock.head, clock.confirmed)) same

instance (priority := low) {α : Type} (x : Chain α) [kept : Respects (Same ChainState.clock) x] :
    Respects (Same ChainState.transactions) x :=
  kept.mono fun _ _ same => congrArg Clock.transactions same

instance (priority := low) {α : Type} (x : Chain α) [kept : Respects (Same ChainState.clock) x] :
    Respects (Same ChainState.witnessSchedule) x :=
  kept.mono fun _ _ same => congrArg Clock.schedule same

instance : Respects (Same ChainState.transactions) updateWitnessSchedule :=
  (within_blockStep .witnessSchedule).mono fun _ _ same => same .transactions (by decide)

instance (skip : SkipFlags) (producing : Bool) (trx : SignedTransaction) :
    Respects (Same ChainState.pulse) (applyTransaction skip producing trx) := by
  dsimp only [applyTransaction]
  infer_instance

instance (trx : SignedTransaction) :
    Respects (Same ChainState.witnessSchedule) (insertTransaction trx) :=
  respects_create fun _ _ _ => rfl

instance (skip : SkipFlags) (producing : Bool) (trx : SignedTransaction) :
    Respects (Same ChainState.witnessSchedule) (applyTransaction skip producing trx) := by
  dsimp only [applyTransaction]
  infer_instance

instance (block : SignedBlock) : Respects (Same ChainState.pulse) (applyBlockMaintenance block) :=
  respects_applyBlockMaintenance

/-! ### What a block does to the clock -/

/-- The number at the quarter of some numbers in ascending order. -/
def quorumNumber (numbers : List Nat) : Nat :=
  (numbers.insertionSort (· ≤ ·)).getD (2500 * numbers.length / 10000) 0

/-- The last irreversible block after a block of some number, by the last one before it and the
blocks that the scheduled witnesses have confirmed. -/
def irreversibleAfter (number last : Nat) (confirmed : List Nat) : Nat :=
  if number < 201600 then if 21 < number then number - 21 else last
  else max last (quorumNumber confirmed)

section Runs

variable {s t : ChainState} {u : Unit}

theorem confirmed_replace {state : ChainState} {name : AccountName} {witness changed : Witness}
    (found : state.witnesses.find? name = some witness) (isOwner : changed.owner = name) :
    ({ state with witnesses := state.witnesses.replace changed } : ChainState).confirmed =
      Function.update state.confirmed name changed.lastConfirmedBlockNum := by
  subst isOwner
  funext other
  unfold ChainState.confirmed
  by_cases isChanged : other = changed.owner
  · subst isChanged
    rw [Function.update_self, Table.find?_replace_self found]
    rfl
  · rw [Function.update_of_ne isChanged, Table.find?_replace_of_ne isChanged]

theorem recordSlots_lastIrreversible (dgp : DynamicGlobalProperties) (missedBlocks : Nat) :
    (dgp.recordSlots missedBlocks).lastIrreversibleBlockNum = dgp.lastIrreversibleBlockNum := by
  unfold DynamicGlobalProperties.recordSlots
  induction List.range (missedBlocks + 1) generalizing dgp with
  | nil => rfl
  | cons slot rest inductionHypothesis => exact inductionHypothesis _

theorem updateGlobalDynamicData_clock (run : updateGlobalDynamicData skip block s = .ok u t) :
    t.clock = { s.clock with
      head := ⟨block.blockNum, block.id, block.timestamp, s.dgp.lastIrreversibleBlockNum⟩ } := by
  simp only [updateGlobalDynamicData, bind_eq_ok, get_eq_ok, modify_eq_ok, require_eq_ok] at run
  obtain ⟨_, _, ⟨rfl, rfl⟩, _, middle, counted, _, _, rfl, _, _, ⟨rfl, rfl⟩, _, rfl⟩ := run
  have same : middle.clock = s.clock := Respects.related (R := Same ChainState.clock) s _ _ counted
  have last : middle.dgp.lastIrreversibleBlockNum = s.dgp.lastIrreversibleBlockNum :=
    congrArg (fun clock : Clock => clock.head.lastIrreversible) same
  rw [← same, ← last, ← recordSlots_lastIrreversible middle.dgp]
  rfl

theorem updateSigningWitness_clock {name : AccountName}
    (run : updateSigningWitness name block s = .ok u t) :
    t.clock = { s.clock with
      confirmed := Function.update s.confirmed name block.blockNum } := by
  simp only [updateSigningWitness, updateWitness, bind_eq_ok, get_eq_ok, modifyWitness_eq_ok] at run
  obtain ⟨_, _, ⟨rfl, rfl⟩, witness, _, found, made, rfl⟩ := run
  cases made
  have isOwner : witness.owner = name := Table.key_of_find? found
  unfold ChainState.clock
  rw [confirmed_replace found]
  exact isOwner

theorem getScheduled_eq_ok {names : List AccountName} {witnesses : List Witness}
    (run : getScheduled names s = .ok witnesses t) :
    s = t ∧ names.map s.witnesses.find? = witnesses.map some := by
  induction names generalizing witnesses with
  | nil =>
    obtain ⟨rfl, rfl⟩ := pure_eq_ok.mp run
    exact ⟨rfl, rfl⟩
  | cons name rest inductionHypothesis =>
    simp only [getScheduled, bind_eq_ok, getWitness_eq_ok, pure_eq_ok] at run
    obtain ⟨witness, _, ⟨found, rfl⟩, others, _, scheduled, rfl, rfl⟩ := run
    obtain ⟨rfl, same⟩ := inductionHypothesis scheduled
    rw [List.map_cons, List.map_cons, same, found]
    exact ⟨rfl, rfl⟩

theorem updateLastIrreversibleNum_clock (run : updateLastIrreversibleNum s = .ok u t) :
    t.clock = { s.clock with head := { s.dgp.head with
      lastIrreversible := irreversibleAfter s.dgp.headBlockNumber s.dgp.lastIrreversibleBlockNum
        (s.witnessSchedule.scheduledWitnesses.map s.confirmed) } } := by
  unfold updateLastIrreversibleNum at run
  replace run := get_bind_eq_ok.mp run
  unfold irreversibleAfter
  split at run
  · next early =>
    rw [if_pos early]
    rcases whenever_eq_ok.mp run with ⟨late, moved⟩ | ⟨first, rfl⟩
    · obtain rfl := modify_eq_ok.mp moved
      rw [if_pos late]
      rfl
    · rw [if_neg first]
      rfl
  · next late =>
    rw [if_neg late]
    obtain ⟨witnesses, _, scheduled, run⟩ := bind_eq_ok.mp run
    obtain ⟨rfl, found⟩ := getScheduled_eq_ok scheduled
    have same := congrArg
      (List.map fun found => (found.map Witness.lastConfirmedBlockNum).getD 0) found
    rw [List.map_map, List.map_map] at same
    have quorum : confirmedBlockNum witnesses =
        quorumNumber (s.witnessSchedule.scheduledWitnesses.map s.confirmed) := by
      refine Eq.trans ?_ (congrArg quorumNumber same).symm
      rw [quorumNumber, List.length_map]
      rfl
    rcases whenever_eq_ok.mp run with ⟨grows, moved⟩ | ⟨stays, rfl⟩
    · obtain rfl := modify_eq_ok.mp moved
      rw [← quorum, max_eq_right grows.le]
      rfl
    · rw [← quorum, max_eq_left (Nat.le_of_not_lt stays)]
      rfl

theorem validateBlockHeader_eq_ok {witness : Witness}
    (run : validateBlockHeader skip block s = .ok witness t) :
    s = t ∧ s.dgp.headBlockId = block.previous ∧ s.dgp.time < block.timestamp ∧
      s.witnesses.find? block.witness = some witness := by
  have unmoved : s = t := unmoved run
  simp only [validateBlockHeader, bind_eq_ok, get_eq_ok, require_eq_ok, getWitness_eq_ok,
    pure_eq_ok] at run
  obtain ⟨_, _, ⟨rfl, rfl⟩, _, _, ⟨follows, rfl⟩, _, _, ⟨later, rfl⟩, found, _, ⟨isFound, rfl⟩,
    _, _, _, _, _, _, rfl, _⟩ := run
  exact ⟨unmoved, follows, later, isFound⟩

/-- The first part of a block: after its transactions the head moves to the block, and its witness
has confirmed it. -/
theorem applyBlockTransactions_clock {producing : Bool}
    (run : applyBlockTransactions skip producing block s = .ok u t) :
    s.dgp.headBlockId = block.previous ∧ s.dgp.time < block.timestamp ∧
      ∃ before after, before.clock = s.clock ∧
        forM block.transactions (applyTransaction skip producing) before = .ok () after ∧
        t.clock = ⟨⟨block.blockNum, block.id, block.timestamp, s.dgp.lastIrreversibleBlockNum⟩,
          after.transactions, s.witnessSchedule,
          Function.update s.confirmed block.witness block.blockNum⟩ := by
  unfold applyBlockTransactions at run
  obtain ⟨_, _, merkle, run⟩ := bind_eq_ok.mp run
  obtain rfl := unmoved merkle
  obtain ⟨signing, _, header, run⟩ := bind_eq_ok.mp run
  obtain ⟨rfl, follows, later, found⟩ := validateBlockHeader_eq_ok header
  simp only [bind_eq_ok, get_eq_ok, require_eq_ok, modify_eq_ok, getWitness_eq_ok] at run
  obtain ⟨_, _, ⟨rfl, rfl⟩, _, _, ⟨_, rfl⟩, _, _, rfl, _, before, extended, _, _, ⟨_, rfl⟩, _, _,
    ⟨rfl, rfl⟩, _, _, ⟨_, rfl⟩, _, after, applied, _, moved, global, signed⟩ := run
  have same : before.clock = s.clock := (viewed extended).trans rfl
  have pulse : after.pulse = s.pulse :=
    (viewed applied).trans (congrArg (fun clock : Clock => (clock.head, clock.confirmed)) same)
  have schedule : after.witnessSchedule = s.witnessSchedule :=
    (viewed applied).trans (congrArg Clock.schedule same)
  have owner : signing.owner = block.witness := Table.key_of_find? found
  have confirmed : moved.confirmed = after.confirmed :=
    congrArg Clock.confirmed (updateGlobalDynamicData_clock global)
  refine ⟨follows, later, before, after, same, applied, ?_⟩
  rw [updateSigningWitness_clock signed, confirmed, updateGlobalDynamicData_clock global, owner]
  change Clock.mk ⟨_, _, _, after.pulse.1.lastIrreversible⟩ after.transactions
    after.witnessSchedule (Function.update after.pulse.2 _ _) = _
  rw [pulse, schedule]
  rfl

theorem applyBlockMaintenance_clock (run : applyBlockMaintenance block s = .ok u t) :
    t.pulse = s.pulse ∧ t.transactions =
      s.transactions.filter fun trx => decide (s.dgp.time ≤ trx.expiration) := by
  refine ⟨viewed run, ?_⟩
  unfold applyBlockMaintenance at run
  obtain ⟨_, _, summary, run⟩ := bind_eq_ok.mp run
  obtain rfl := modify_eq_ok.mp summary
  obtain ⟨_, _, cleared, run⟩ := bind_eq_ok.mp run
  obtain rfl := modify_eq_ok.mp cleared
  refine (@Respects.related _ _ _ (Same ChainState.transactions) _ ?_ _ _ _ run).trans rfl
  repeat with_reducible refine .step inferInstance fun _ => ?_
  infer_instance

/-- What a block does to the head and to what is confirmed. -/
theorem applyBlock_pulse {producing : Bool} (run : applyBlock skip producing block s = .ok u t) :
    t.confirmed = Function.update s.confirmed block.witness block.blockNum ∧
      t.dgp.head = ⟨block.blockNum, block.id, block.timestamp,
        irreversibleAfter block.blockNum s.dgp.lastIrreversibleBlockNum
          (s.witnessSchedule.scheduledWitnesses.map t.confirmed)⟩ := by
  unfold applyBlock at run
  obtain ⟨_, first, started, run⟩ := bind_eq_ok.mp run
  obtain ⟨_, second, moved, run⟩ := bind_eq_ok.mp run
  obtain ⟨_, _, _, after, _, _, clock⟩ := applyBlockTransactions_clock started
  have irreversible := updateLastIrreversibleNum_clock moved
  have pulse : t.pulse = second.pulse := (applyBlockMaintenance_clock run).1
  have confirmedFirst : first.confirmed =
      Function.update s.confirmed block.witness block.blockNum := congrArg Clock.confirmed clock
  have confirmed : t.confirmed = Function.update s.confirmed block.witness block.blockNum :=
    calc t.confirmed = second.confirmed := congrArg Prod.snd pulse
      _ = first.confirmed := congrArg Clock.confirmed irreversible
      _ = _ := confirmedFirst
  refine ⟨confirmed, ?_⟩
  have head : first.dgp.head = _ := congrArg Clock.head clock
  have schedule : first.witnessSchedule = s.witnessSchedule := congrArg Clock.schedule clock
  have number : first.dgp.headBlockNumber = block.blockNum := congrArg HeadBlock.number head
  have last : first.dgp.lastIrreversibleBlockNum = s.dgp.lastIrreversibleBlockNum :=
    congrArg HeadBlock.lastIrreversible head
  calc t.dgp.head = second.dgp.head := congrArg Prod.fst pulse
    _ = _ := congrArg Clock.head irreversible
    _ = _ := by
      rw [head, number, last, schedule, confirmed, confirmedFirst]

end Runs

end Zattera
