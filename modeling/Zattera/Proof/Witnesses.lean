/-
This file is about what operations and the steps of a block do to the witnesses.
None is ever removed. All that happens to one, apart from the update of the
schedule, is that its votes are adjusted or that fields are written which neither
its votes nor its place in the schedule depend on. From this follows that no
witness has the number of votes whose successor is zero, because the votes are
changed by a step that divides by that successor; and that the price a witness
has published, if any, is a price of dollars in liquid tokens.
-/

import Zattera.Proof.Phases

namespace Zattera

open Program

set_option synthInstance.maxSize 4096

/-! ### The witnesses -/

/-- No witness has a number of votes whose successor is zero. -/
def ChainState.Divisible (state : ChainState) : Prop :=
  ∀ witness ∈ state.witnesses, witness.votes.toInt ≠ -1

/-- A price of dollars in liquid tokens. -/
structure Price.IsFeed (price : Price) : Prop where
  base : price.base.symbol = .dollar
  quote : price.quote.symbol = .liquid
  base_pos : 0 < price.base.amount.toInt
  quote_pos : 0 < price.quote.amount.toInt

/-- A price that is null or of dollars in liquid tokens. -/
def Price.Quoted (price : Price) : Prop := price = default ∨ price.IsFeed

/-- What witnesses have published are prices of dollars in liquid tokens. -/
def ChainState.Quoted (state : ChainState) : Prop :=
  ∀ witness ∈ state.witnesses, witness.dollarExchangeRate.Quoted

/-- No witness is removed, and the votes and the published prices stay as they should be. -/
structure Enlists (s t : ChainState) : Prop where
  there : ∀ name, (s.witnesses.find? name).isSome → (t.witnesses.find? name).isSome
  divisible : s.Divisible → t.Divisible
  quoted : s.Quoted → t.Quoted

instance : Std.Refl Enlists := ⟨fun _ => ⟨fun _ => id, id, id⟩⟩

instance : IsTrans ChainState Enlists where
  trans _ _ _ first second :=
    ⟨fun name there => second.there name (first.there name there),
      second.divisible ∘ first.divisible, second.quoted ∘ first.quoted⟩

theorem enlists_of_witnesses {s t : ChainState} (same : t.witnesses = s.witnesses) :
    Enlists s t := by
  refine ⟨fun name there => ?_, fun divisible => ?_, fun quoted => ?_⟩
  · rwa [same]
  · unfold ChainState.Divisible
    rwa [same]
  · unfold ChainState.Quoted
    rwa [same]

/-! ### What happens to a witness -/

/-- What the votes of a witness and its place in the schedule depend on. -/
def Witness.core (witness : Witness) :
    AccountName × WitnessScheduleType × ShareType × UInt128 × UInt128 × UInt128 :=
  (witness.owner, witness.schedule, witness.votes, witness.virtualLastUpdate,
    witness.virtualPosition, witness.virtualScheduledTime)

/-- A single change of a witness at a virtual time. -/
inductive Witness.Step (time : UInt128) (old new : Witness) : Prop
  | written (core : new.core = old.core)
      (price : old.dollarExchangeRate.Quoted → new.dollarExchangeRate.Quoted)
  | voted (delta total : ShareType) (made : old.adjustVote delta time total = .ok new)

/-- What becomes of a witness while the virtual time stands still. -/
abbrev Witness.Evolves (time : UInt128) : Witness → Witness → Prop :=
  Relation.ReflTransGen (Witness.Step time)

/-- A witness as it is created. -/
structure Witness.IsNew (witness : Witness) : Prop where
  votes : witness.votes = 0
  lastUpdate : witness.virtualLastUpdate = 0
  position : witness.virtualPosition = 0
  scheduled : witness.virtualScheduledTime = BitVec.allOnes 128
  price : witness.dollarExchangeRate = default

/-- An adjustment of the votes leaves alone what does not depend on them. -/
theorem Witness.adjustVote_eq_ok {old new : Witness} {delta total : ShareType} {time : UInt128}
    (made : old.adjustVote delta time total = .ok new) :
    new.owner = old.owner ∧ new.schedule = old.schedule ∧
      new.dollarExchangeRate = old.dollarExchangeRate ∧ new.votes.toInt ≠ -1 := by
  simp only [Witness.adjustVote, except_bind_eq_ok, ensure_eq_ok, except_pure_eq_ok] at made
  obtain ⟨votes, _, _, _, lap, divided, rfl⟩ := made
  refine ⟨rfl, rfl, rfl, fun isMinusOne => ?_⟩
  -- the step divides by the successor of the votes
  have isZero : votes.toInt + 1 = 0 := by
    change votes.toInt = -1 at isMinusOne
    omega
  rw [isZero] at divided
  cases divided

namespace Witness.Step

variable {time : UInt128} {old new : Witness}

theorem owner (step : Witness.Step time old new) : new.owner = old.owner := by
  cases step with
  | written core _ => exact congrArg Prod.fst core
  | voted _ _ made => exact (Witness.adjustVote_eq_ok made).1

theorem schedule (step : Witness.Step time old new) : new.schedule = old.schedule := by
  cases step with
  | written core _ => exact congrArg (fun core => core.2.1) core
  | voted _ _ made => exact (Witness.adjustVote_eq_ok made).2.1

theorem votes (step : Witness.Step time old new) (divisible : old.votes.toInt ≠ -1) :
    new.votes.toInt ≠ -1 := by
  cases step with
  | written core _ =>
    rw [show new.votes = old.votes from congrArg (fun core => core.2.2.1) core]
    exact divisible
  | voted _ _ made => exact (Witness.adjustVote_eq_ok made).2.2.2

theorem price (step : Witness.Step time old new) (quoted : old.dollarExchangeRate.Quoted) :
    new.dollarExchangeRate.Quoted := by
  cases step with
  | written _ price => exact price quoted
  | voted _ _ made =>
    rw [(Witness.adjustVote_eq_ok made).2.2.1]
    exact quoted

end Witness.Step

/-- What every change keeps holds of what becomes of a witness. -/
theorem Witness.Evolves.invariant {P : Witness → Prop} {time : UInt128} {old new : Witness}
    (evolves : Witness.Evolves time old new) (holds : P old)
    (each : ∀ old new, Witness.Step time old new → P old → P new) : P new := by
  induction evolves with
  | refl => exact holds
  | tail _ step inductionHypothesis => exact each _ _ step inductionHypothesis

/-- No witness is removed, and all are what became of witnesses that were there or are new. -/
structure Enrolls (s t : ChainState) : Prop where
  schedule : t.witnessSchedule = s.witnessSchedule
  followed : ∀ name old, s.witnesses.find? name = some old →
    ∃ new, t.witnesses.find? name = some new ∧
      Witness.Evolves s.witnessSchedule.currentVirtualTime old new
  known : ∀ new ∈ t.witnesses, ∃ old, (old ∈ s.witnesses ∨ old.IsNew) ∧
    Witness.Evolves s.witnessSchedule.currentVirtualTime old new

theorem enrolls_of_witnesses {s t : ChainState} (same : t.witnesses = s.witnesses)
    (sameSchedule : t.witnessSchedule = s.witnessSchedule) : Enrolls s t := by
  refine ⟨sameSchedule, fun name old found => ⟨old, ?_, .refl⟩, fun new member =>
    ⟨new, .inl ?_, .refl⟩⟩
  · rwa [same]
  · rwa [← same]

instance : Std.Refl Enrolls := ⟨fun _ => enrolls_of_witnesses rfl rfl⟩

instance : IsTrans ChainState Enrolls where
  trans s u t first second := by
    obtain ⟨scheduleFirst, followedFirst, knownFirst⟩ := first
    obtain ⟨scheduleSecond, followedSecond, knownSecond⟩ := second
    rw [scheduleFirst] at followedSecond knownSecond
    refine ⟨scheduleSecond.trans scheduleFirst, fun name old found => ?_, fun new member => ?_⟩
    · obtain ⟨middle, found, evolved⟩ := followedFirst name old found
      obtain ⟨new, found, further⟩ := followedSecond name middle found
      exact ⟨new, found, evolved.trans further⟩
    · obtain ⟨middle, known | isNew, evolved⟩ := knownSecond new member
      · obtain ⟨old, known, before⟩ := knownFirst middle known
        exact ⟨old, known, before.trans evolved⟩
      · exact ⟨middle, .inr isNew, evolved⟩

theorem Enrolls.enlists {s t : ChainState} (enrolls : Enrolls s t) : Enlists s t := by
  refine ⟨fun name there => ?_, fun divisible new member => ?_, fun quoted new member => ?_⟩
  · obtain ⟨old, found⟩ := Option.isSome_iff_exists.mp there
    obtain ⟨new, found, _⟩ := enrolls.followed name old found
    exact Option.isSome_of_mem found
  · obtain ⟨old, known, evolves⟩ := enrolls.known new member
    refine evolves.invariant (P := fun witness => witness.votes.toInt ≠ -1) ?_ fun _ _ step =>
      step.votes
    rcases known with known | isNew
    · exact divisible old known
    · rw [isNew.votes]
      decide
  · obtain ⟨old, known, evolves⟩ := enrolls.known new member
    refine evolves.invariant (P := fun witness => witness.dollarExchangeRate.Quoted) ?_
      fun _ _ step => step.price
    rcases known with known | isNew
    · exact quoted old known
    · exact .inl isNew.price

/-- The parts of the state other than the witnesses and their schedule. -/
abbrev Part.unenrolled : List Part :=
  [.dgp, .accounts, .accountAuthorities, .witnessVotes, .feedHistory, .comments,
    .nextCommentId, .commentContents, .commentVotes, .limitOrders, .convertRequests, .escrows,
    .savingsWithdraws, .withdrawRoutes, .vestingDelegations, .delegationExpirations,
    .nextExpirationId, .ownerHistories, .nextHistoryId, .recoveryRequests, .changeRecoveryRequests,
    .declineRequests, .rewardFunds, .transactions, .blockSummaries, .hardforks]

/-- What is not for the votes, the schedule or the price of a witness. -/
instance : Overlooks Enrolls (Either (Covered Part.unenrolled)
    (Among [.part .witnesses, .witness .confirmed, .witness .record])) where
  holds {s t} same := by
    let view (witness : Witness) := (witness.core, witness.dollarExchangeRate)
    have listed : t.witnesses.objects.map view = s.witnesses.objects.map view := by
      refine Table.map_eq_of_facetOf (same .owners (by decide)) fun first second named agree => ?_
      have votes := agree .votes (same (.witness .votes) (by decide))
      have lap := agree .lap (same (.witness .lap) (by decide))
      have schedule := agree .schedule (same (.witness .schedule) (by decide))
      have price := agree .price (same (.witness .price) (by decide))
      have shown (witness : Witness) : view witness = ((witness.owner,
          (Faceted.only .schedule witness).schedule, (Faceted.only .votes witness).votes,
          (Faceted.only .lap witness).virtualLastUpdate, (Faceted.only .lap witness).virtualPosition,
          (Faceted.only .lap witness).virtualScheduledTime),
          (Faceted.only .price witness).dollarExchangeRate) := rfl
      rw [shown, shown, named, votes, lap, schedule, price]
    have found (name : AccountName) :
        (t.witnesses.find? name).map view = (s.witnesses.find? name).map view :=
      Table.map_find?_congr (fun alike => congrArg (fun shown => shown.1.1) alike) listed name
    have written {old new : Witness} (alike : view new = view old) :
        Witness.Evolves s.witnessSchedule.currentVirtualTime old new := by
      obtain ⟨core, price⟩ := Prod.mk.inj alike
      refine .single (.written core fun quoted => ?_)
      rwa [price]
    refine ⟨same (.part .witnessSchedule) (by decide), fun name old stored => ?_, fun new member => ?_⟩
    · have alike := found name
      rw [stored, Option.map_some, Option.map_eq_some_iff] at alike
      obtain ⟨new, stored, alike⟩ := alike
      exact ⟨new, stored, written alike⟩
    · obtain ⟨old, member, alike⟩ := List.mem_map.mp (listed ▸ List.mem_map_of_mem member)
      exact ⟨old, .inl member, written alike.symm⟩

theorem enrolls_replace {s : ChainState} {name : AccountName} {old changed : Witness}
    (found : s.witnesses.find? name = some old)
    (step : Witness.Step s.witnessSchedule.currentVirtualTime old changed) :
    Enrolls s { s with witnesses := s.witnesses.replace changed } := by
  obtain rfl : old.owner = name := Table.key_of_find? found
  refine ⟨rfl, fun other witness stored => ?_, fun new member => ?_⟩
  · by_cases same : other = changed.owner
    · subst same
      rw [step.owner, found, Option.some.injEq] at stored
      subst stored
      rw [← step.owner] at found
      exact ⟨changed, Table.find?_replace_self found, .single step⟩
    · exact ⟨witness, (Table.find?_replace_of_ne same).trans stored, .refl⟩
  · rcases Table.mem_replace.mp member with ⟨member, _⟩ | ⟨rfl, _⟩
    · exact ⟨new, .inl member, .refl⟩
    · exact ⟨old, .inl (Table.mem_of_find? found), .single step⟩

instance (name : AccountName) (delta : ShareType) :
    Respects Enrolls (adjustWitnessVote name delta) where
  related s _ t run := by
    replace run := get_bind_eq_ok.mp run
    obtain ⟨witness, changed, found, made, rfl⟩ := modifyWitness_eq_ok.mp run
    exact enrolls_replace found (.voted delta _ made)

theorem enrolls_insertWitness {witness : Witness} (isNew : witness.IsNew) :
    Respects Enrolls (insertWitness witness) := by
  refine respects_create fun s added inserted =>
    ⟨rfl, fun name old found => ⟨old, ?_, .refl⟩, fun new member => ?_⟩
  · by_cases same : name = witness.owner
    · subst same
      rw [(Table.insert?_eq_some inserted).1] at found
      cases found
    · exact (Table.find?_insert?_of_ne inserted same).trans found
  · rcases (Table.mem_of_insert? inserted).mp member with member | rfl
    · exact ⟨new, .inl member, .refl⟩
    · exact ⟨new, .inr isNew, .refl⟩

/-- A published price has been validated. -/
theorem enrolls_feedPublish {o : FeedPublishOperation} (valid : o.validate = .ok ()) :
    Respects Enrolls (feedPublishEvaluator o) := by
  simp only [FeedPublishOperation.validate, except_bind_eq_ok] at valid
  obtain ⟨_, _, _, _, valid⟩ := valid
  obtain ⟨base, quote, _⟩ := Price.validate_eq_ok.mp valid
  refine .checked fun symbols => .step inferInstance fun now =>
    respects_modifyWitness fun s witness changed found made => ?_
  cases made
  refine enrolls_replace found (.written rfl fun _ => .inr ⟨symbols.1, symbols.2, ?_, ?_⟩)
  · exact Int64.lt_iff_toInt_lt.mp base
  · exact Int64.lt_iff_toInt_lt.mp quote

theorem isFeed_of_validateDollarPrice {price : Price} (valid : validateDollarPrice price = .ok ()) :
    price.IsFeed := by
  obtain ⟨_, symbols, valid⟩ := except_bind_eq_ok.mp valid
  have symbols := ensure_eq_ok.mp symbols
  simp only [isAssetType, Bool.and_eq_true, decide_eq_true_eq] at symbols
  obtain ⟨base, quote, _⟩ := Price.validate_eq_ok.mp valid
  exact ⟨symbols.1, symbols.2, Int64.lt_iff_toInt_lt.mp base, Int64.lt_iff_toInt_lt.mp quote⟩

theorem enrolls_witnessSetProperties {o : WitnessSetPropertiesOperation}
    (valid : o.validate = .ok ()) : Respects Enrolls (witnessSetPropertiesEvaluator o) := by
  simp only [WitnessSetPropertiesOperation.validate, except_bind_eq_ok] at valid
  obtain ⟨_, _, _, _, _, _, _, _, _, _, _, priced, _⟩ := valid
  refine .step inferInstance fun _ => .step inferInstance fun _ => .step inferInstance fun now =>
    respects_modifyWitness fun s witness changed found made => ?_
  cases made
  refine enrolls_replace found (.written rfl fun quoted => ?_)
  change (o.dollarExchangeRate.getD witness.dollarExchangeRate).Quoted
  cases given : o.dollarExchangeRate with
  | none => exact quoted
  | some price =>
    rw [given] at priced
    exact .inr (isFeed_of_validateDollarPrice priced)

/-- Operations remove no witness. -/
theorem enrolls_applyOperation (producing : Bool) {op : Operation} (valid : op.validate = .ok ()) :
    Respects Enrolls (applyOperation producing op) := by
  cases op
  case feedPublish o => exact enrolls_feedPublish valid
  case witnessSetProperties o => exact enrolls_witnessSetProperties valid
  all_goals try exact respects_of_aspects (beside_applyOperation producing _) (of_decide_eq_true rfl)
  all_goals dsimp only [applyOperation, witnessUpdateEvaluator, accountWitnessVoteEvaluator,
    transferToVestingEvaluator, accountCreateEvaluator, accountCreateWithDelegationEvaluator,
    accountWitnessProxyEvaluator, claimRewardBalanceEvaluator]
  all_goals repeat first
    | with_reducible refine .step inferInstance fun _ => ?_
    | infer_instance
    | exact overlooked_updateWitness [.record] fun _ => rfl
    | exact enrolls_insertWitness ⟨rfl, rfl, rfl, rfl, rfl⟩
    | exact overlooked_write .witnessVotes rfl
    | split

theorem enlists_applyOperation (producing : Bool) {op : Operation} (valid : op.validate = .ok ()) :
    Respects Enlists (applyOperation producing op) :=
  (enrolls_applyOperation producing valid).mono fun _ _ => Enrolls.enlists

/-- Nor do the steps of a block. -/
theorem enrolls_blockStep {step : BlockStep} (other : step ≠ .witnessSchedule) :
    Respects Enrolls step.run := by
  cases step
  case witnessSchedule => exact absurd rfl other
  all_goals try exact respects_of_aspects (beside_blockStep _) (of_decide_eq_true rfl)
  all_goals
    dsimp only [BlockStep.run]
    infer_instance

/-! ### The update of the schedule -/

/-- What the votes and the price of a witness do not show. -/
instance : Overlooks Enlists (Among [.part .witnesses, .witness .schedule, .witness .lap,
    .part .witnessSchedule, .part .hardforks, .part .dgp, .global .rates]) where
  holds {s t} same := by
    let view (witness : Witness) := (witness.owner, witness.votes, witness.dollarExchangeRate)
    have listed : t.witnesses.objects.map view = s.witnesses.objects.map view := by
      refine Table.map_eq_of_facetOf (same .owners (by decide)) fun first second named agree => ?_
      have votes := agree .votes (same (.witness .votes) (by decide))
      have price := agree .price (same (.witness .price) (by decide))
      have shown (witness : Witness) : view witness = (witness.owner,
          (Faceted.only .votes witness).votes, (Faceted.only .price witness).dollarExchangeRate) :=
        rfl
      rw [shown, shown, named, votes, price]
    have kept (new : Witness) (member : new ∈ t.witnesses) : ∃ old ∈ s.witnesses, view old = view new :=
      List.mem_map.mp (listed ▸ List.mem_map_of_mem member)
    refine ⟨fun name there => ?_, fun divisible new member => ?_, fun quoted new member => ?_⟩
    · rwa [← Table.mem_map_key, same .owners (by decide), Table.mem_map_key]
    · obtain ⟨old, member, alike⟩ := kept new member
      rw [← show old.votes = new.votes from (Prod.mk.inj (Prod.mk.inj alike).2).1]
      exact divisible old member
    · obtain ⟨old, member, alike⟩ := kept new member
      rw [← show old.dollarExchangeRate = new.dollarExchangeRate from
        (Prod.mk.inj (Prod.mk.inj alike).2).2]
      exact quoted old member

theorem enlists_blockStep (step : BlockStep) : Respects Enlists step.run := by
  by_cases update : step = .witnessSchedule
  · subst update
    exact respects_of_aspects (beside_blockStep _) fun _ => id
  · exact (enrolls_blockStep update).mono fun _ _ => Enrolls.enlists

end Zattera
