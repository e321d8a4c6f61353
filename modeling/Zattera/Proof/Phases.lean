/-
This file is about the states a block passes through. After its transactions a
block takes a list of maintenance steps, and some of what there is to say is about
the state in which one of them is taken. What every operation and every step
keeps holds there as well.
-/

import Zattera.Proof.Footprint

namespace Zattera

open Program

set_option synthInstance.maxSize 1024

/-- The steps of the maintenance of a block, in their order. -/
def maintenance (block : SignedBlock) : List BlockStep :=
  [.blockSummary block, .expiredTransactions, .expiredOrders, .expiredDelegations,
    .witnessSchedule, .medianFeed, .virtualSupply, .nullAccountBalance, .funds, .conversions,
    .commentCashout, .vestingWithdrawals, .savingsWithdraws, .virtualSupply, .accountRecovery,
    .escrowRatification, .declinedVotingRights]

/-- A block up to its maintenance. -/
def openBlock (skip : SkipFlags) (producing : Bool) (block : SignedBlock) : Chain Unit := do
  applyBlockTransactions skip producing block
  updateLastIrreversibleNum

theorem applyBlock_eq_steps (skip : SkipFlags) (producing : Bool) (block : SignedBlock) :
    applyBlock skip producing block = openBlock skip producing block >>= fun _ =>
      forM (maintenance block) BlockStep.run >>= fun _ => processHardforks := by
  simp only [applyBlock, applyBlockMaintenance, openBlock, maintenance, List.forM_cons,
    List.forM_nil, BlockStep.run, bind_assoc, pure_bind]

/-- A chain takes a step of the maintenance of a block in this state. -/
inductive Arrives (start : ChainState) (step : BlockStep) : ChainState → Prop
  | intro {s u : ChainState} (reached : Reachable start s) (skip : SkipFlags) (producing : Bool)
      (block : SignedBlock) (validated : skip.validate = false) (earlier later : List BlockStep)
      (order : maintenance block = earlier ++ step :: later)
      (run : (openBlock skip producing block >>= fun _ => forM earlier BlockStep.run) s = .ok () u) :
      Arrives start step u

/-- Blocks that are applied one after the other reach a state. -/
theorem reachable_of_forM {start before after : ChainState} {skip : SkipFlags} {producing : Bool}
    {blocks : List SignedBlock} {u : PUnit} (validated : skip.validate = false)
    (reached : Reachable start before)
    (run : forM blocks (applyBlock skip producing) before = .ok u after) :
    Reachable start after := by
  induction blocks generalizing before with
  | nil =>
    obtain ⟨_, rfl⟩ := pure_eq_ok.mp run
    exact reached
  | cons block rest inductionHypothesis =>
    rw [List.forM_cons] at run
    obtain ⟨_, middle, applied, run⟩ := bind_eq_ok.mp run
    refine inductionHypothesis (.step reached (.block skip producing block) ?_ trivial applied) run
    rw [ChainStep.validated, validated]
    rfl

/-- What a chain does up to some step of the maintenance of a block. -/
def upTo (blocks : List SignedBlock) (last : SignedBlock) (count : Nat) : Chain Unit := do
  forM blocks (applyBlock {} false)
  openBlock {} false last
  forM ((maintenance last).take count) BlockStep.run

theorem arrives_upTo {start u : ChainState} {blocks : List SignedBlock} {last : SignedBlock}
    {count : Nat} {step : BlockStep} {v : Unit} (next : (maintenance last)[count]? = some step)
    (run : upTo blocks last count start = .ok v u) : Arrives start step u := by
  obtain ⟨_, s, applied, rest⟩ := bind_eq_ok.mp run
  obtain ⟨listed, rfl⟩ := List.getElem?_eq_some_iff.mp next
  have order : maintenance last = (maintenance last).take count ++
      (maintenance last)[count] :: (maintenance last).drop (count + 1) := by
    rw [List.getElem_cons_drop, List.take_append_drop]
  exact ⟨reachable_of_forM rfl .start applied, {}, false, last, rfl, _, _, order, rest⟩

section Rules

variable {R : ChainState → ChainState → Prop} [Std.Refl R] [IsTrans ChainState R]

theorem respects_openBlock {skip : SkipFlags} {producing : Bool} {block : SignedBlock}
    (validated : skip.validate = false)
    (operation : ∀ op : Operation, op.validate = .ok () → Respects R (applyOperation producing op))
    (each : ∀ step : BlockStep, step ∉ maintenance block → Respects R step.run)
    (inserted : ∀ trx, Respects R (insertTransaction trx)) :
    Respects R (openBlock skip producing block) := by
  have applied : Respects R (forM block.transactions (applyTransaction skip producing)) :=
    respects_forM_mem fun trx _ => respects_applyTransaction validated fun op _ => operation op
  have produced := each (.currentWitness block) (by simp [maintenance])
  have extensions := each (.headerExtensions block) (by simp [maintenance])
  have global := each (.globalDynamicData skip block) (by simp [maintenance])
  have signing (name : AccountName) := each (.signingWitness name block) (by simp [maintenance])
  have irreversible := each .lastIrreversibleNum (by simp [maintenance])
  dsimp only [BlockStep.run] at produced extensions global signing irreversible
  dsimp only [openBlock, applyBlockTransactions]
  infer_instance

/-- The rule for a relation that all operations and all steps of a block respect. -/
theorem respects_run_of_steps {step : ChainStep} (validated : step.validated)
    (operation : ∀ producing, ∀ op : Operation, op.validate = .ok () →
      Respects R (applyOperation producing op))
    (each : ∀ step : BlockStep, Respects R step.run)
    (inserted : ∀ trx, Respects R (insertTransaction trx)) : Respects R step.run := by
  cases step with
  | transaction skip producing trx =>
    exact respects_applyTransaction (by simpa [ChainStep.validated] using validated) fun op _ =>
      operation producing op
  | block skip producing next =>
    have opened : Respects R (openBlock skip producing next) :=
      respects_openBlock (by simpa [ChainStep.validated] using validated) (operation producing)
        (fun step _ => each step) inserted
    have maintained : Respects R (forM (maintenance next) BlockStep.run) :=
      respects_forM_mem fun step _ => each step
    have hardforks : Respects R processHardforks := by
      dsimp only [processHardforks]
      infer_instance
    dsimp only [ChainStep.run]
    rw [applyBlock_eq_steps]
    infer_instance

end Rules

/-- What all operations and steps keep holds where a step is taken. -/
theorem Arrives.invariant {Inv : ChainState → Prop} {start u : ChainState} {step : BlockStep}
    (arrives : Arrives start step u) (base : Inv start)
    (operation : ∀ producing, ∀ op : Operation, op.validate = .ok () →
      Respects (Keeping Inv) (applyOperation producing op))
    (each : ∀ step : BlockStep, Respects (Keeping Inv) step.run)
    (inserted : ∀ trx, Respects (Keeping Inv) (insertTransaction trx)) : Inv u := by
  obtain ⟨reached, skip, producing, block, validated, earlier, later, _, run⟩ := arrives
  have kept := reached.invariant base fun before after step holds validated _ accepted =>
    (respects_run_of_steps validated operation each inserted).related before _ after accepted holds
  have opened : Respects (Keeping Inv) (openBlock skip producing block) :=
    respects_openBlock validated (operation producing) (fun step _ => each step) inserted
  have maintained : Respects (Keeping Inv) (forM earlier BlockStep.run) :=
    respects_forM_mem fun step _ => each step
  exact keeps run kept

end Zattera
