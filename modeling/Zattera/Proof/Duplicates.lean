/-
This file shows that no transaction is applied twice on a chain, although the
chain forgets a transaction when it expires. What was applied is remembered until
the time of the head block has passed its expiration, and from then on the
transaction is too late to be accepted.
-/

import Zattera.Proof.Authority
import Zattera.Proof.Clock

namespace Zattera

open Program

set_option synthInstance.maxSize 1024

/-- A transaction that was applied is either still remembered or has expired. -/
def ChainState.Remembers (state : ChainState) (trx : SignedTransaction) : Prop :=
  state.transactions.find? trx.id = some ⟨trx.id, trx.expiration⟩ ∨
    trx.expiration < state.dgp.time ∧ state.dgp.headBlockNumber ≠ 0

/-- No transaction was applied twice, and none can be applied again. -/
structure Unrepeated (applied : List SignedTransaction) (state : ChainState) : Prop where
  distinct : (applied.map SignedTransaction.id).Nodup
  remembered : ∀ trx ∈ applied, state.Remembers trx

/-- Transactions with one id expire at one time, as their ids are hashes of their contents. -/
def Consistent (transactions : List SignedTransaction) : Prop :=
  ∀ first ∈ transactions, ∀ second ∈ transactions, first.id = second.id →
    first.expiration = second.expiration

instance (transactions : List SignedTransaction) : Decidable (Consistent transactions) :=
  inferInstanceAs (Decidable (∀ first ∈ transactions, ∀ second ∈ transactions, _))

section Steps

variable {applied : List SignedTransaction} {s t : ChainState} {u : Unit} {skip : SkipFlags}
  {producing : Bool}

theorem Unrepeated.perm {others : List SignedTransaction} (unrepeated : Unrepeated applied s)
    (same : others.Perm applied) : Unrepeated others s where
  distinct := (same.map SignedTransaction.id).nodup_iff.mpr unrepeated.distinct
  remembered trx member := unrepeated.remembered trx (same.mem_iff.mp member)

theorem remembers_of_clock {trx : SignedTransaction} (same : t.clock = s.clock)
    (remembered : s.Remembers trx) : t.Remembers trx := by
  have transactions : t.transactions = s.transactions := congrArg Clock.transactions same
  have time : t.dgp.time = s.dgp.time := congrArg (fun clock : Clock => clock.head.time) same
  have number : t.dgp.headBlockNumber = s.dgp.headBlockNumber :=
    congrArg (fun clock : Clock => clock.head.number) same
  unfold ChainState.Remembers
  rwa [transactions, time, number]

/-- What an accepted transaction says of the state it was accepted in, and what it leaves. -/
theorem applyTransaction_eq_ok {trx : SignedTransaction} (checked : skip.transactionDupeCheck = false)
    (run : applyTransaction skip producing trx s = .ok u t) :
    ∃ inserted, s.transactions.find? trx.id = none ∧
      (s.dgp.headBlockNumber = 0 ∨ s.dgp.time < trx.expiration) ∧
      s.transactions.insert? ⟨trx.id, trx.expiration⟩ = some inserted ∧
      t.clock = { s.clock with transactions := inserted } := by
  simp only [applyTransaction, bind_eq_ok, get_eq_ok, lift_eq_ok, whenever_eq_ok, checked] at run
  obtain ⟨_, _, ⟨rfl, rfl⟩, _, _, ⟨accepted, rfl⟩, _, middle, stored, operations⟩ := run
  simp only [checkTransaction, except_bind_eq_ok, ensure_eq_ok, unlessSkipped_eq_ok, checked,
    decide_eq_true_eq] at accepted
  obtain ⟨_, _, _, fresh, _, _, timely⟩ := accepted
  rcases stored with ⟨_, stored⟩ | ⟨no, _⟩
  · obtain ⟨inserted, added, rfl⟩ := create_eq_ok.mp stored
    refine ⟨inserted, ?_, ?_, added, (viewed operations).trans rfl⟩
    · exact fresh.resolve_left Bool.false_ne_true
    · refine timely.imp_right fun timely => ?_
      simp only [checkTransactionTime, except_bind_eq_ok, ensure_eq_ok] at timely
      obtain ⟨_, _, _, _, soon⟩ := timely
      exact soon
  · exact absurd trivial no

/-- One transaction: it is none of those applied before, and it is remembered itself. -/
theorem Unrepeated.transaction {trx : SignedTransaction} (checked : skip.transactionDupeCheck = false)
    (unrepeated : Unrepeated applied s) (consistent : Consistent (trx :: applied))
    (run : applyTransaction skip producing trx s = .ok u t) : Unrepeated (trx :: applied) t := by
  obtain ⟨inserted, fresh, timely, added, clock⟩ := applyTransaction_eq_ok checked run
  have transactions : t.transactions = inserted := congrArg Clock.transactions clock
  have time : t.dgp.time = s.dgp.time := congrArg (fun clock : Clock => clock.head.time) clock
  have number : t.dgp.headBlockNumber = s.dgp.headBlockNumber :=
    congrArg (fun clock : Clock => clock.head.number) clock
  have new : ∀ other ∈ applied, other.id ≠ trx.id := by
    intro other member same
    rcases unrepeated.remembered other member with found | ⟨late, started⟩
    · rw [same, fresh] at found
      cases found
    · have expiration := consistent other (List.mem_cons_of_mem _ member) trx List.mem_cons_self same
      rw [expiration] at late
      exact absurd (UInt32.lt_trans late (timely.resolve_left started)) (UInt32.lt_irrefl _)
  constructor
  · rw [List.map_cons, List.nodup_cons]
    refine ⟨fun listed => ?_, unrepeated.distinct⟩
    obtain ⟨other, member, same⟩ := List.mem_map.mp listed
    exact new other member same
  · intro other member
    unfold ChainState.Remembers
    rw [transactions, time, number]
    rcases List.mem_cons.mp member with rfl | member
    · exact .inl (Table.find?_insert?_self added)
    · refine (unrepeated.remembered other member).imp_left fun found => ?_
      rw [← found]
      exact Table.find?_insert?_of_ne added (new other member)

/-- The transactions of a block. -/
theorem Unrepeated.transactions {listed : List SignedTransaction}
    (checked : skip.transactionDupeCheck = false) (unrepeated : Unrepeated applied s)
    (consistent : Consistent (listed ++ applied))
    (run : forM listed (applyTransaction skip producing) s = .ok u t) :
    Unrepeated (listed ++ applied) t := by
  induction listed generalizing applied s with
  | nil =>
    obtain ⟨_, rfl⟩ := pure_eq_ok.mp run
    exact unrepeated
  | cons trx rest inductionHypothesis =>
    rw [List.forM_cons] at run
    obtain ⟨_, middle, first, run⟩ := bind_eq_ok.mp run
    have moved : (rest ++ trx :: applied).Perm (trx :: rest ++ applied) := List.perm_middle
    have consistentRest : Consistent (rest ++ trx :: applied) := fun a isA b isB =>
      consistent a (moved.mem_iff.mp isA) b (moved.mem_iff.mp isB)
    have one := unrepeated.transaction checked (fun a isA b isB =>
      consistentRest a (List.mem_append_right _ isA) b (List.mem_append_right _ isB)) first
    exact (inductionHypothesis one consistentRest run).perm moved.symm

/-- A block: what it forgets at its end has expired by its time. -/
theorem Unrepeated.block {block : SignedBlock} (checked : skip.transactionDupeCheck = false)
    (unrepeated : Unrepeated applied s) (consistent : Consistent (block.transactions ++ applied))
    (run : applyBlock skip producing block s = .ok u t) :
    Unrepeated (block.transactions ++ applied) t := by
  have head := (applyBlock_pulse run).2
  have time : t.dgp.time = block.timestamp := congrArg HeadBlock.time head
  have number : t.dgp.headBlockNumber = block.blockNum := congrArg HeadBlock.number head
  unfold applyBlock at run
  obtain ⟨_, first, started, run⟩ := bind_eq_ok.mp run
  obtain ⟨_, second, moved, run⟩ := bind_eq_ok.mp run
  obtain ⟨_, later, before, after, same, ran, clock⟩ := applyBlockTransactions_clock started
  have clocks := updateLastIrreversibleNum_clock moved
  have transactions : second.transactions = after.transactions :=
    (congrArg Clock.transactions clocks).trans (congrArg Clock.transactions clock)
  have secondTime : second.dgp.time = block.timestamp :=
    (congrArg (fun clock : Clock => clock.head.time) clocks).trans
      (congrArg (fun clock : Clock => clock.head.time) clock)
  have afterTime : after.dgp.time = s.dgp.time :=
    (congrArg (fun pulse => pulse.1.time) (viewed ran : after.pulse = before.pulse)).trans
      (congrArg (fun clock : Clock => clock.head.time) same)
  have kept := (applyBlockMaintenance_clock run).2
  rw [transactions, secondTime] at kept
  have start : Unrepeated applied before := ⟨unrepeated.distinct, fun trx member =>
    remembers_of_clock same (unrepeated.remembered trx member)⟩
  obtain ⟨distinct, remembered⟩ := start.transactions checked consistent ran
  refine ⟨distinct, fun trx member => ?_⟩
  have notFirst : t.dgp.headBlockNumber ≠ 0 := number ▸ Nat.succ_ne_zero _
  rcases remembered trx member with found | ⟨late, _⟩
  · by_cases expired : trx.expiration < block.timestamp
    · exact .inr ⟨time ▸ expired, notFirst⟩
    · left
      rw [kept]
      exact Table.find?_filter found (decide_eq_true (UInt32.not_lt.mp expired))
  · rw [afterTime] at late
    exact .inr ⟨time ▸ UInt32.lt_trans late later, notFirst⟩

end Steps

/-! ### Chains -/

theorem unrepeated_of_chained {start state : ChainState} {blocks : List SignedBlock}
    (chained : Chained (fun skip => skip.transactionDupeCheck = false) start blocks state)
    (consistent : Consistent (blocks.flatMap SignedBlock.transactions)) :
    Unrepeated (blocks.flatMap SignedBlock.transactions) state := by
  induction chained with
  | start => exact ⟨List.nodup_nil, nofun⟩
  | block earlier skip producing next checked applied inductionHypothesis =>
    rw [List.flatMap_cons] at consistent ⊢
    refine Unrepeated.block checked (inductionHypothesis fun a isA b isB => ?_) consistent applied
    exact consistent a (List.mem_append_right _ isA) b (List.mem_append_right _ isB)

/-- On a chain of blocks that were applied with the check for duplicates, no transaction id occurs
twice. -/
theorem chained_transactions_nodup {start state : ChainState} {blocks : List SignedBlock}
    (chained : Chained (fun skip => skip.transactionDupeCheck = false) start blocks state)
    (consistent : Consistent (blocks.flatMap SignedBlock.transactions)) :
    ((blocks.flatMap SignedBlock.transactions).map SignedTransaction.id).Nodup :=
  (unrepeated_of_chained chained consistent).distinct

/-- A block of the genesis witness on top of another one. -/
def genesisBlock (previous : BlockId) (transactions : List SignedTransaction) : SignedBlock where
  previous := previous
  timestamp := genesisTime + UInt32.ofNat (3 * (previous.num + 1))
  witness := AccountName.genesis
  transactionMerkleRoot := 0
  extensions := []
  transactions := transactions
  hash := 1
  signee := genesisPublicKey
  calculatedMerkleRoot := 0
  size := 100

/-- Blocks of the genesis witness on top of one another, the first of them with some transactions. -/
def genesisBlocks (previous : BlockId) (transactions : List SignedTransaction) :
    Nat → List SignedBlock
  | 0 => []
  | count + 1 =>
    let block := genesisBlock previous transactions
    block :: genesisBlocks block.id [] count

/-- The genesis witness votes for itself in one block and takes the vote back in the next. -/
def votingBlocks : List SignedBlock :=
  let vote := genesisVote [genesisPublicKey]
  let first := genesisBlock default [vote]
  [first, genesisBlock first.id [{ vote with
    id := 2
    operations := [.accountWitnessVote ⟨AccountName.genesis, AccountName.genesis, false⟩] }]]

theorem votingBlocks_nodup :
    ∃ state, forM votingBlocks (applyBlock {} false) genesis = .ok () state ∧
      ((votingBlocks.reverse.flatMap SignedBlock.transactions).map SignedTransaction.id).Nodup := by
  have finished : Finishes (forM votingBlocks (applyBlock {} false)) genesis := by decide +kernel
  obtain ⟨_, state, run⟩ := finished
  refine ⟨state, run, ?_⟩
  have chained := Chained.of_forM (fun skip => skip.transactionDupeCheck = false) rfl .start run
  rw [List.append_nil] at chained
  exact chained_transactions_nodup chained (by decide)

end Zattera
