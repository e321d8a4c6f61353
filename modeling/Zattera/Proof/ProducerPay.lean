/-
This file is about what a round of blocks pays to its producers. A block pays its
producer twenty-one times its share of the new tokens, weighted by the way the
witness was scheduled and divided by the sum of these weights over the schedule.
So a round of twenty-one witnesses pays no more than its shares; a shorter round
pays as much as one of twenty-one would.
-/

import Zattera.Proof.Schedule

namespace Zattera

open Program

set_option synthInstance.maxSize 4096

variable {s t : ChainState} {name : AccountName} {us : List ChainState}

/-! ### The pay of a block -/

/-- How a block splits the tokens it creates. -/
structure FundSplit where
  contentReward : ShareType
  vestingReward : ShareType
  witnessShare : ShareType
  witnessReward : ShareType
  producer : AccountName

/-- The first part of `process_funds`, which finds the shares of the new tokens and, from that of the
producer, what the producer is paid. -/
def splitFunds : Chain FundSplit := do
  let props := (← get).dgp
  let newLiquid ← props.newLiquid
  let contentShare ← percentOf newLiquid 7500
  let contentReward ← payRewardFunds contentShare
  let vestingReward ← vestingReward newLiquid props.totalVestingShares
  let rest ← newLiquid.sub contentReward
  let witnessShare ← rest.sub vestingReward
  let witness ← getWitness props.currentWitness
  let witnessReward ← producerReward props witnessShare witness (← get).witnessSchedule
  return ⟨contentReward, vestingReward, witnessShare, witnessReward, witness.owner⟩

/-- The second part, which issues the tokens. -/
def FundSplit.issue (split : FundSplit) : Chain Unit := do
  let paid ← split.contentReward.add split.vestingReward
  let created ← paid.add split.witnessReward
  modifyDgp fun p => do
    let totalVestingFundLiquid ← p.totalVestingFundLiquid.add split.vestingReward
    let currentLiquidSupply ← p.currentLiquidSupply.add created
    let virtualLiquidSupply ← p.virtualLiquidSupply.add created
    return { p with
      totalVestingFundLiquid := totalVestingFundLiquid
      currentLiquidSupply := currentLiquidSupply
      virtualLiquidSupply := virtualLiquidSupply }
  discard (createVesting split.producer ⟨split.witnessReward, .liquid⟩)

theorem processFunds_eq : processFunds = splitFunds >>= FundSplit.issue := by
  simp only [processFunds, splitFunds, FundSplit.issue, bind_assoc, pure_bind]

/-- Reward funds are paid no more than there is for them. -/
theorem payEachFund_le {reward used total : ShareType} {funds : List RewardFund}
    (run : payEachFund reward funds used s = .ok total t) :
    total.toInt ≤ max used.toInt reward.toInt := by
  induction funds generalizing s used with
  | nil =>
    obtain ⟨rfl, _⟩ := pure_eq_ok.mp run
    exact le_max_left _ _
  | cons fund rest inductionHypothesis =>
    simp only [payEachFund, bind_eq_ok, lift_eq_ok, require_eq_ok, and_assoc, exists_and_left,
      exists_eq_left', exists_const] at run
    obtain ⟨_, _, _, _, _, _, _, used', _, within, run⟩ := run
    rw [Int64.le_iff_toInt_le] at within
    have later := inductionHypothesis run
    rw [max_eq_right within] at later
    exact later.trans (le_max_right _ _)

theorem percentOf_eq_ok {amount part : ShareType} {percent : Nat} (small : percent ≤ 10000)
    (nonneg : 0 ≤ amount.toInt) (made : percentOf amount percent = .ok part) :
    part.toInt = amount.toInt * percent / 10000 := by
  simp only [percentOf, except_bind_eq_ok, ShareType.mul_eq_ok, ShareType.div_eq_ok] at made
  obtain ⟨scaled, product, _, quotient⟩ := made
  have exactPercent : (Int64.ofNat percent).toInt = percent :=
    Int64.toInt_ofNat_of_lt (by omega)
  rw [quotient, product, exactPercent]
  exact Int.tdiv_eq_ediv_of_nonneg (Int.mul_nonneg nonneg (by omega))

theorem splitFunds_eq_ok {split : FundSplit} (run : splitFunds s = .ok split t) :
    ∃ newLiquid contentShare witness, s.dgp.newLiquid = .ok newLiquid ∧
      percentOf newLiquid 7500 = .ok contentShare ∧
      split.contentReward.toInt ≤ max 0 contentShare.toInt ∧
      vestingReward newLiquid s.dgp.totalVestingShares = .ok split.vestingReward ∧
      split.witnessShare.toInt =
        newLiquid.toInt - split.contentReward.toInt - split.vestingReward.toInt ∧
      s.witnesses.find? s.dgp.currentWitness = some witness ∧
      producerReward s.dgp split.witnessShare witness s.witnessSchedule =
        .ok split.witnessReward := by
  simp only [splitFunds, payRewardFunds, bind_eq_ok, lift_eq_ok, get_eq_ok, pure_eq_ok,
    getWitness_eq_ok, ShareType.sub_eq_ok, and_assoc, exists_and_left, exists_eq_left'] at run
  obtain ⟨newLiquid, created, contentShare, shared, content, paid, payment, vesting, vested, rest,
    exactRest, share, exactShare, witness, found, reward, rewarded, rfl, rfl⟩ := run
  have within : Respects (Within [.rewardFunds]) (payEachFund contentShare s.rewardFunds.objects 0) :=
    inferInstance
  have same := within.related s content paid payment
  have witnesses : paid.witnesses = s.witnesses := same .witnesses (by decide)
  have schedule : paid.witnessSchedule = s.witnessSchedule := same .witnessSchedule (by decide)
  rw [witnesses] at found
  rw [schedule] at rewarded
  exact ⟨newLiquid, contentShare, witness, created, shared, payEachFund_le payment, vested,
    by rw [exactShare, exactRest], found, rewarded⟩

/-- The producer's share of the tokens created for a supply that is not negative. -/
theorem witnessShare_nonneg {split : FundSplit} (supply : 0 ≤ s.dgp.virtualLiquidSupply.toInt)
    (run : splitFunds s = .ok split t) : 0 ≤ split.witnessShare.toInt := by
  obtain ⟨newLiquid, contentShare, _, created, shared, content, vested, exactShare, _⟩ :=
    splitFunds_eq_ok run
  have nonneg : 0 ≤ newLiquid.toInt := by
    unfold DynamicGlobalProperties.newLiquid at created
    split at created
    · cases created
      decide
    · simp only [except_bind_eq_ok, ShareType.mul_eq_ok, ShareType.div_eq_ok] at created
      obtain ⟨scaled, product, _, quotient⟩ := created
      have small : s.dgp.currentInflationRate < 9223372036854775808 := by
        unfold DynamicGlobalProperties.currentInflationRate
        omega
      have rate : (Int64.ofNat s.dgp.currentInflationRate).toInt = s.dgp.currentInflationRate :=
        Int64.toInt_ofNat_of_lt small
      rw [quotient, product, rate]
      exact Int.tdiv_nonneg (Int.mul_nonneg supply (by omega)) (by decide)
  have contentPart := percentOf_eq_ok (by decide) nonneg shared
  have vestingPart : split.vestingReward.toInt ≤ newLiquid.toInt * 1500 / 10000 := by
    simp only [vestingReward, except_bind_eq_ok, except_pure_eq_ok] at vested
    obtain ⟨part, made, chosen⟩ := vested
    have exactPart := percentOf_eq_ok (by decide) nonneg made
    have zero : (0 : ShareType).toInt = 0 := rfl
    split at chosen <;> rw [← chosen] <;> omega
  omega

/-! ### The weights of a schedule -/

/-- How a witness has been scheduled. -/
def ChainState.scheduleType (state : ChainState) (name : AccountName) : WitnessScheduleType :=
  ((state.witnesses.find? name).map Witness.schedule).getD .none

/-- The weight of the pay of a witness. -/
def ChainState.payWeight (state : ChainState) (name : AccountName) : Nat :=
  state.witnessSchedule.payWeight (state.scheduleType name)

theorem scheduleType_of_find? {witness : Witness} (found : s.witnesses.find? name = some witness) :
    s.scheduleType name = witness.schedule := by
  rw [ChainState.scheduleType, found]
  rfl

theorem scheduleType_replace {old changed : Witness} (found : s.witnesses.find? name = some old)
    (sameOwner : changed.owner = old.owner) :
    ({ s with witnesses := s.witnesses.replace changed } : ChainState).scheduleType =
      Function.update s.scheduleType name changed.schedule := by
  obtain rfl : changed.owner = name := sameOwner.trans (Table.key_of_find? found)
  funext other
  unfold ChainState.scheduleType
  by_cases same : other = changed.owner
  · subst same
    rw [Function.update_self, Table.find?_replace_self found]
    rfl
  · rw [Function.update_of_ne same, Table.find?_replace_of_ne same]

theorem scheduleType_setScheduleType {type : WitnessScheduleType} {u : Unit}
    (run : setScheduleType type name s = .ok u t) :
    t.scheduleType = Function.update s.scheduleType name type := by
  obtain ⟨old, changed, found, made, rfl⟩ := modifyWitness_eq_ok.mp run
  cases made
  exact scheduleType_replace found rfl

theorem scheduleType_forM {type : WitnessScheduleType} {names : List AccountName} {u : PUnit}
    (run : forM names (setScheduleType type) s = .ok u t) (name : AccountName) :
    t.scheduleType name = if name ∈ names then type else s.scheduleType name := by
  induction names generalizing s with
  | nil =>
    obtain ⟨_, rfl⟩ := pure_eq_ok.mp run
    rw [if_neg List.not_mem_nil]
  | cons first rest inductionHypothesis =>
    rw [List.forM_cons] at run
    obtain ⟨_, middle, marked, run⟩ := bind_eq_ok.mp run
    rw [inductionHypothesis run, scheduleType_setScheduleType marked]
    by_cases isFirst : name = first
    · subst isFirst
      simp
    · rw [Function.update_of_ne isFirst]
      simp [isFirst]

theorem sameType_modifyWitness {change : Witness → Except ChainError Witness}
    (same : ∀ witness changed, change witness = .ok changed → changed.owner = witness.owner ∧
      changed.schedule = witness.schedule) :
    Respects (Same ChainState.scheduleType) (modifyWitness name change) := by
  refine respects_modifyWitness fun s witness changed found made => ?_
  obtain ⟨sameOwner, sameType⟩ := same witness changed made
  change ChainState.scheduleType _ = _
  rw [scheduleType_replace found sameOwner, sameType, ← scheduleType_of_find? found,
    Function.update_eq_self]

instance (newVirtualTime : UInt128) (names : List AccountName) :
    Respects (Same ChainState.scheduleType) (advanceProcessed newVirtualTime names) := by
  induction names with
  | nil =>
    unfold advanceProcessed
    infer_instance
  | cons name rest inductionHypothesis =>
    have advanced (lap : UInt128) : Respects (Same ChainState.scheduleType)
        (updateWitness name fun witness => { witness with
          virtualPosition := 0
          virtualLastUpdate := newVirtualTime
          virtualScheduledTime := newVirtualTime + lap }) := by
      refine sameType_modifyWitness fun witness changed made => ?_
      cases made
      exact ⟨rfl, rfl⟩
    unfold advanceProcessed
    infer_instance

instance : Respects (Same ChainState.scheduleType) resetVirtualScheduleTime := by
  refine .step (.modify fun _ => rfl) fun _ => .step inferInstance fun _ =>
    @Respects.forM _ _ _ _ _ _ _ _ fun witness => sameType_modifyWitness fun old changed made => ?_
  obtain ⟨lap, _, made⟩ := except_bind_eq_ok.mp made
  cases made
  exact ⟨rfl, rfl⟩

/-- The witnesses with the most votes are scheduled as such, the others as runners. -/
theorem scheduleType_selectWitnesses {elected added : List AccountName} {time : UInt128}
    (run : selectWitnesses s = .ok (elected, added, time) t) :
    (∀ name ∈ elected, t.scheduleType name = .top20) ∧
      ∀ name ∈ added, t.scheduleType name = .timeshare := by
  have distinct : (elected ++ added).Nodup := nodup_selected run
  simp only [selectWitnesses, bind_eq_ok, get_eq_ok] at run
  obtain ⟨_, _, ⟨rfl, rfl⟩, _, voted, markVoted, _, _, ⟨rfl, rfl⟩, _, run', markAdded, overflows,
    advanced, moved, rest⟩ := run
  have sameMoved : advanced.scheduleType = run'.scheduleType := viewed moved
  have same : t.scheduleType = advanced.scheduleType ∧ s.votedWitnessNames = elected ∧
      (selectRunners s.votedWitnessNames voted.witnessesByScheduleTime s.votedWitnessNames.length
        voted.witnessSchedule.currentVirtualTime).added = added := by
    cases overflows with
    | true =>
      obtain ⟨_, reset, resetting, rest⟩ := bind_eq_ok.mp rest
      obtain ⟨selection, rfl⟩ := pure_eq_ok.mp rest
      cases selection
      exact ⟨viewed resetting, rfl, rfl⟩
    | false =>
      obtain ⟨selection, rfl⟩ := pure_eq_ok.mp rest
      cases selection
      exact ⟨rfl, rfl, rfl⟩
  obtain ⟨sameTypes, isElected, isAdded⟩ := same
  have types (name : AccountName) : t.scheduleType name =
      if name ∈ added then .timeshare else if name ∈ elected then .top20
        else s.scheduleType name := by
    rw [sameTypes, sameMoved, scheduleType_forM markAdded, scheduleType_forM markVoted, isAdded,
      isElected]
  refine ⟨fun name member => ?_, fun name member => ?_⟩
  · have other : name ∉ added := fun also => List.disjoint_of_nodup_append distinct member also
    rw [types, if_neg other, if_pos member]
  · rw [types, if_pos member]

/-- The weights by which witnesses are paid. -/
def ChainState.payWeights (state : ChainState) : Nat × Nat :=
  (state.witnessSchedule.top20Weight, state.witnessSchedule.timeshareWeight)

instance (priority := low) {α : Type} (x : Chain α) [within : Respects (Within [.witnesses]) x] :
    Respects (Same ChainState.payWeights) x :=
  within.mono fun s t same => by
    have schedule : t.witnessSchedule = s.witnessSchedule := same .witnessSchedule (by decide)
    change ChainState.payWeights _ = _
    unfold ChainState.payWeights
    rw [schedule]

instance : Respects (Same ChainState.payWeights) selectWitnesses := by
  have reset : Respects (Same ChainState.payWeights) resetVirtualScheduleTime :=
    .step (.modify fun _ => rfl) fun _ => inferInstance
  dsimp only [selectWitnesses]
  repeat with_reducible refine .step inferInstance fun _ => ?_
  infer_instance

/-- A full schedule is paid for by the sum of the weights of its witnesses. -/
structure ChainState.Weighted (state : ChainState) : Prop where
  schedulable : state.Schedulable
  weights : state.payWeights = (1, 5)
  total : state.witnessSchedule.numScheduledWitnesses = 21 →
    state.witnessSchedule.witnessPayNormalizationFactor =
      (state.witnessSchedule.scheduledWitnesses.map state.payWeight).sum

theorem Enrolls.scheduleType (enrolls : Enrolls s t) (there : (s.witnesses.find? name).isSome) :
    t.scheduleType name = s.scheduleType name := by
  obtain ⟨old, found⟩ := Option.isSome_iff_exists.mp there
  obtain ⟨new, foundNew, evolves⟩ := enrolls.followed name old found
  rw [scheduleType_of_find? found, scheduleType_of_find? foundNew]
  exact evolves.invariant (P := fun witness => witness.schedule = old.schedule) rfl
    fun _ _ step same => step.schedule.trans same

theorem Enrolls.payWeight (enrolls : Enrolls s t) (there : (s.witnesses.find? name).isSome) :
    t.payWeight name = s.payWeight name := by
  unfold ChainState.payWeight
  rw [enrolls.schedule, enrolls.scheduleType there]

theorem Enrolls.weighted (enrolls : Enrolls s t) (weighted : s.Weighted) : t.Weighted := by
  refine ⟨enrolls.enlists.schedulable enrolls.schedule weighted.schedulable, ?_, fun full => ?_⟩
  · unfold ChainState.payWeights
    rw [enrolls.schedule]
    exact weighted.weights
  · rw [enrolls.schedule] at full ⊢
    rw [weighted.total full]
    exact congrArg List.sum (List.map_congr_left fun name member =>
      (enrolls.payWeight (weighted.schedulable.scheduled name member)).symm)

theorem weighted_updateWitnessSchedule :
    Respects (Keeping ChainState.Weighted) updateWitnessSchedule where
  related s u t run weighted := by
    have schedulable : t.Schedulable := keeps run weighted.schedulable
    replace run := get_bind_eq_ok.mp run
    rcases whenever_eq_ok.mp run with ⟨_, updated⟩ | ⟨_, rfl⟩
    · obtain ⟨elected, added, time, middle, version, medians, selected, witnesses, renewed, _⟩ :=
        updateWitnessSchedule4_eq_ok updated
      have weights : t.payWeights = (1, 5) := by
        rw [ChainState.payWeights, renewed, ← weighted.weights]
        have kept : middle.payWeights = _ := viewed selected
        exact kept
      obtain ⟨top, timeshare⟩ := scheduleType_selectWitnesses selected
      have types : t.scheduleType = middle.scheduleType := by
        unfold ChainState.scheduleType
        rw [witnesses]
      refine ⟨schedulable, weights, fun full => ?_⟩
      have perm : t.witnessSchedule.scheduledWitnesses.Perm (elected ++ added) := by
        have shuffled := perm_renewed middle.witnessSchedule elected added time version middle.dgp
        rw [if_neg ?_] at shuffled
        · rw [renewed]
          exact shuffled
        · intro none_
          rw [renewed] at full
          change max (elected ++ added).length 1 = 21 at full
          rw [none_] at full
          cases full
      have weigh (type : WitnessScheduleType) (names : List AccountName)
          (all : ∀ name ∈ names, middle.scheduleType name = type) :
          (names.map t.payWeight).sum = names.length * t.witnessSchedule.payWeight type := by
        rw [List.map_congr_left (g := fun _ => t.witnessSchedule.payWeight type)]
        · simp
        · intro name member
          rw [ChainState.payWeight, types, all name member]
      rw [(perm.map _).sum_eq, List.map_append, List.sum_append, weigh .top20 elected top,
        weigh .timeshare added timeshare, renewed]
      change middle.witnessSchedule.top20Weight * _ + middle.witnessSchedule.timeshareWeight * _ =
        _ * middle.witnessSchedule.top20Weight + _ * middle.witnessSchedule.timeshareWeight
      rw [Nat.mul_comm, Nat.mul_comm middle.witnessSchedule.timeshareWeight]
    · exact weighted

theorem weighted_initGenesis (liquid dollar : ShareType) : (initGenesis liquid dollar).Weighted :=
  ⟨schedulable_initGenesis liquid dollar, rfl, fun full => by
    change 1 = 21 at full
    cases full⟩

theorem weighted_blockStep (step : BlockStep) : Respects (Keeping ChainState.Weighted) step.run := by
  by_cases update : step = .witnessSchedule
  · subst update
    exact weighted_updateWitnessSchedule
  · exact (enrolls_blockStep update).mono fun _ _ => Enrolls.weighted

theorem weighted_of_arrives {liquid dollar : ShareType} {step : BlockStep} {u : ChainState}
    (arrives : Arrives (initGenesis liquid dollar) step u) : u.Weighted :=
  arrives.invariant (weighted_initGenesis liquid dollar)
    (fun producing _ valid => (enrolls_applyOperation producing valid).mono fun _ _ =>
      Enrolls.weighted)
    weighted_blockStep fun _ => respects_create fun s added _ =>
      @Enrolls.weighted s { s with transactions := added } (enrolls_of_witnesses rfl rfl)

/-! ### Rounds -/

/-- A block up to the step that pays its producer. -/
def untilFunds (skip : SkipFlags) (producing : Bool) (block : SignedBlock) : Chain Unit := do
  openBlock skip producing block
  forM ((maintenance block).take 8) BlockStep.run

theorem applyBlock_eq_untilFunds (skip : SkipFlags) (producing : Bool) (block : SignedBlock) :
    applyBlock skip producing block = untilFunds skip producing block >>= fun _ =>
      forM ((maintenance block).drop 8) BlockStep.run >>= fun _ => processHardforks := by
  rw [applyBlock_eq_steps, untilFunds]
  simp only [maintenance, List.take_succ_cons, List.take_zero, List.drop_succ_cons, List.drop_zero,
    List.forM_cons, List.forM_nil, bind_assoc, pure_bind]

/-- Blocks applied one after the other, with the states in which they pay their producers. -/
inductive PayRun : ChainState → List ChainState → ChainState → Prop
  | nil {s : ChainState} : PayRun s [] s
  | cons {s u m t : ChainState} {us : List ChainState} (skip : SkipFlags) (producing : Bool)
      (block : SignedBlock) (validated : skip.validate = false)
      (arrived : untilFunds skip producing block s = .ok () u)
      (applied : applyBlock skip producing block s = .ok () m) (further : PayRun m us t) :
      PayRun s (u :: us) t

/-- A full round: no block but possibly the first updates the schedule, and each of the scheduled
witnesses produces one of them. -/
structure Round (s : ChainState) (us : List ChainState) (t : ChainState) : Prop where
  run : PayRun s us t
  oneSchedule : ∀ u ∈ us.tail, u.dgp.headBlockNumber % 21 ≠ 0
  producers : ∀ first ∈ us.head?, (us.map fun u => u.dgp.currentWitness).Perm
    first.witnessSchedule.scheduledWitnesses

section Rounds

variable {skip : SkipFlags} {producing : Bool} {block : SignedBlock} {s u m t : ChainState}

/-- An update of the schedule that is not due changes nothing. -/
theorem updateWitnessSchedule_idle {v : Unit} (notDue : s.dgp.headBlockNumber % 21 ≠ 0)
    (run : updateWitnessSchedule s = .ok v t) : t = s := by
  replace run := get_bind_eq_ok.mp run
  rcases whenever_eq_ok.mp run with ⟨due, _⟩ | ⟨_, rfl⟩
  · exact absurd due notDue
  · rfl

/-- Up to its pay, a block that does not update the schedule only enrolls witnesses. -/
theorem enrolls_untilFunds (validated : skip.validate = false)
    (arrived : untilFunds skip producing block s = .ok () u)
    (notDue : u.dgp.headBlockNumber % 21 ≠ 0) : Enrolls s u := by
  obtain ⟨_, opened, opening, maintained⟩ := bind_eq_ok.mp arrived
  have opens : Respects Enrolls (openBlock skip producing block) := by
    refine respects_openBlock validated (fun op valid => enrolls_applyOperation producing valid)
      (fun step other => enrolls_blockStep fun update => ?_) fun trx => inferInstance
    rw [update] at other
    exact other (by simp [maintenance])
  have split : (maintenance block).take 8 =
      [.blockSummary block, .expiredTransactions, .expiredOrders, .expiredDelegations] ++
        .witnessSchedule :: [.medianFeed, .virtualSupply, .nullAccountBalance] := rfl
  rw [split, List.forM_append, List.forM_cons] at maintained
  obtain ⟨_, before, earlier, maintained⟩ := bind_eq_ok.mp maintained
  obtain ⟨_, after, updated, later⟩ := bind_eq_ok.mp maintained
  have expires : Respects Enrolls (forM [BlockStep.blockSummary block, .expiredTransactions,
      .expiredOrders, .expiredDelegations] BlockStep.run) := by
    refine respects_forM_mem fun step listed => enrolls_blockStep fun update => ?_
    subst update
    simp at listed
  have feeds : Respects Enrolls (forM [BlockStep.medianFeed, .virtualSupply, .nullAccountBalance]
      BlockStep.run) := by
    refine respects_forM_mem fun step listed => enrolls_blockStep fun update => ?_
    subst update
    simp at listed
  have ticks : Respects (Same ChainState.clock) (forM [BlockStep.medianFeed, .virtualSupply,
      .nullAccountBalance] BlockStep.run) := by
    simp only [List.forM_cons, List.forM_nil, BlockStep.run]
    infer_instance
  have head : u.dgp.headBlockNumber = before.dgp.headBlockNumber := by
    have second : u.clock = after.clock := viewed later
    have first : after.pulse = before.pulse := by
      dsimp only [BlockStep.run] at updated
      exact viewed updated
    exact (congrArg (fun clock => clock.head.number) second).trans
      (congrArg (fun pulse => pulse.1.number) first)
  rw [head] at notDue
  obtain rfl := updateWitnessSchedule_idle notDue updated
  exact IsTrans.trans s opened u (opens.related s _ opened opening) <|
    IsTrans.trans opened after u (expires.related opened _ after earlier)
      (feeds.related after _ u later)

/-- So does the rest of any block. -/
theorem enrolls_afterFunds (arrived : untilFunds skip producing block s = .ok () u)
    (applied : applyBlock skip producing block s = .ok () m) : Enrolls u m := by
  rw [applyBlock_eq_untilFunds] at applied
  obtain ⟨_, u', arrived', applied⟩ := bind_eq_ok.mp applied
  obtain ⟨_, rfl⟩ := EStateM.Result.ok.inj (arrived.symm.trans arrived')
  have rest : Respects Enrolls (forM ((maintenance block).drop 8) BlockStep.run) := by
    refine respects_forM_mem fun step listed => enrolls_blockStep fun update => ?_
    subst update
    simp [maintenance] at listed
  have hardforks : Respects Enrolls processHardforks := by
    dsimp only [processHardforks]
    infer_instance
  exact Respects.related u _ m applied

/-- The later blocks of a round are paid under the schedule of the first. -/
theorem PayRun.enrolls (run : PayRun m us t)
    (oneSchedule : ∀ u ∈ us, u.dgp.headBlockNumber % 21 ≠ 0) (enrolled : Enrolls s m) :
    ∀ u ∈ us, Enrolls s u := by
  induction run with
  | nil => exact List.forall_mem_nil _
  | cons skip producing block validated arrived applied further inductionHypothesis =>
    obtain ⟨notDue, later⟩ := List.forall_mem_cons.mp oneSchedule
    have first := IsTrans.trans _ _ _ enrolled (enrolls_untilFunds validated arrived notDue)
    exact List.forall_mem_cons.mpr ⟨first, inductionHypothesis later
      (IsTrans.trans _ _ _ first (enrolls_afterFunds arrived applied))⟩

/-- The pay of a producer after the bootstrap phase, rounded down. -/
theorem producerReward_le {props : DynamicGlobalProperties} {share reward : ShareType}
    {witness : Witness} {schedule : WitnessSchedule} (normal : props.isBootstrapPhase = false)
    (nonneg : 0 ≤ share.toInt) (weight : schedule.payWeight witness.schedule < 9223372036854775808)
    (small : schedule.witnessPayNormalizationFactor < 9223372036854775808)
    (made : producerReward props share witness schedule = .ok reward) :
    reward.toInt * schedule.witnessPayNormalizationFactor ≤
      share.toInt * (21 * schedule.payWeight witness.schedule) := by
  have exactWeight : (Int64.ofNat (schedule.payWeight witness.schedule)).toInt =
      schedule.payWeight witness.schedule := Int64.toInt_ofNat_of_lt weight
  have exactTotal : (Int64.ofNat schedule.witnessPayNormalizationFactor).toInt =
      schedule.witnessPayNormalizationFactor := Int64.toInt_ofNat_of_lt small
  have twentyOne : (21 : ShareType).toInt = 21 := rfl
  simp only [producerReward, normal, Bool.false_eq_true, if_false, except_bind_eq_ok,
    ShareType.mul_eq_ok, ShareType.div_eq_ok] at made
  obtain ⟨scaled, exactScaled, weighted, exactWeighted, nonzero, quotient⟩ := made
  rw [exactWeighted, exactScaled, exactWeight, exactTotal, twentyOne,
    Int.tdiv_eq_ediv_of_nonneg
      (Int.mul_nonneg (Int.mul_nonneg nonneg (by decide)) (Int.natCast_nonneg _))] at quotient
  rw [quotient, ← mul_assoc]
  exact Int.ediv_mul_le _ fun zero => nonzero (Int64.toInt_inj.mp (exactTotal.trans zero))

theorem ChainState.Weighted.payWeight_mem (weighted : s.Weighted) (name : AccountName) :
    s.payWeight name = 1 ∨ s.payWeight name = 5 := by
  obtain ⟨top, timeshare⟩ := Prod.mk.inj weighted.weights
  unfold ChainState.payWeight WitnessSchedule.payWeight
  split
  · exact .inr timeshare
  · exact .inl top
  · exact .inl rfl

/-- A full schedule has a sum of weights to divide by. -/
theorem ChainState.Weighted.total_bounds (weighted : s.Weighted)
    (full : s.witnessSchedule.numScheduledWitnesses = 21) :
    0 < s.witnessSchedule.witnessPayNormalizationFactor ∧
      s.witnessSchedule.witnessPayNormalizationFactor ≤ 105 := by
  have length : (s.witnessSchedule.scheduledWitnesses.map s.payWeight).length = 21 := by
    rw [List.length_map, WitnessSchedule.scheduledWitnesses, List.length_map, List.length_range, full]
  rw [weighted.total full]
  constructor
  · have least := List.length_le_sum_of_one_le
      (s.witnessSchedule.scheduledWitnesses.map s.payWeight) fun weight listed => by
        obtain ⟨name, _, rfl⟩ := List.mem_map.mp listed
        rcases weighted.payWeight_mem name with isOne | isFive <;> omega
    omega
  · have most := List.sum_le_card_nsmul
      (s.witnessSchedule.scheduledWitnesses.map s.payWeight) 5 fun weight listed => by
        obtain ⟨name, _, rfl⟩ := List.mem_map.mp listed
        rcases weighted.payWeight_mem name with isOne | isFive <;> omega
    rw [length] at most
    exact most

/-- What a block pays under a full schedule, by the weight of its producer. -/
theorem witnessReward_le {split : FundSplit} (weighted : s.Weighted)
    (full : s.witnessSchedule.numScheduledWitnesses = 21) (enrolls : Enrolls s u)
    (normal : u.dgp.isBootstrapPhase = false) (supply : 0 ≤ u.dgp.virtualLiquidSupply.toInt)
    (paid : splitFunds u = .ok split m)
    (produces : u.dgp.currentWitness ∈ s.witnessSchedule.scheduledWitnesses) :
    split.witnessReward.toInt * s.witnessSchedule.witnessPayNormalizationFactor ≤
      split.witnessShare.toInt * (21 * s.payWeight u.dgp.currentWitness) := by
  obtain ⟨_, _, witness, _, _, _, _, _, found, rewarded⟩ := splitFunds_eq_ok paid
  have bounds := weighted.total_bounds full
  have weight : u.witnessSchedule.payWeight witness.schedule =
      s.payWeight u.dgp.currentWitness := by
    rw [← enrolls.payWeight (weighted.schedulable.scheduled _ produces), ChainState.payWeight,
      scheduleType_of_find? found]
  have limit := weighted.payWeight_mem u.dgp.currentWitness
  have pays := producerReward_le normal (witnessShare_nonneg supply paid) (by omega)
    (by rw [enrolls.schedule]; omega) rewarded
  rw [weight, enrolls.schedule] at pays
  exact pays

end Rounds

/-- What is paid in proportion to weights sums up to no more than the weights allow. -/
theorem sum_pays_le {splits : List FundSplit} {weight : AccountName → Nat} {total : Nat}
    {most : Int}
    (paid : List.Forall₂ (fun (u : ChainState) split => split.witnessReward.toInt * (total : Int) ≤
      split.witnessShare.toInt * (21 * (weight u.dgp.currentWitness : Int))) us splits)
    (largest : ∀ split ∈ splits, split.witnessShare.toInt ≤ most) :
    (splits.map fun split => split.witnessReward.toInt).sum * (total : Int) ≤
      most * (21 * ((us.map fun u => weight u.dgp.currentWitness).sum : Int)) := by
  induction paid with
  | nil => simp
  | @cons u split _ _ pays rest inductionHypothesis =>
    obtain ⟨first, others⟩ := List.forall_mem_cons.mp largest
    have later := inductionHypothesis others
    have nonneg : (0 : Int) ≤ 21 * weight u.dgp.currentWitness := by omega
    have more := Int.mul_le_mul_of_nonneg_right first nonneg
    have sum := Int.add_le_add (Int.le_trans pays more) later
    simp only [List.map_cons, List.sum_cons, Nat.cast_add, Int.add_mul, Int.mul_add]
    exact sum

/-- A round of twenty-one witnesses pays them no more than twenty-one times the largest of their
shares. -/
theorem round_pays {liquid dollar : ShareType} {s t : ChainState} {us : List ChainState}
    {splits : List FundSplit} {most : Int} (reached : Reachable (initGenesis liquid dollar) s)
    (round : Round s us t) (normal : ∀ u ∈ us, u.dgp.isBootstrapPhase = false)
    (paid : List.Forall₂ (fun u split => ∃ m, splitFunds u = .ok split m) us splits)
    (largest : ∀ split ∈ splits, split.witnessShare.toInt ≤ most)
    (supply : ∀ u ∈ us, 0 ≤ u.dgp.virtualLiquidSupply)
    (full : ∀ u ∈ us, u.witnessSchedule.numScheduledWitnesses = 21) :
    (splits.map fun split => split.witnessReward.toInt).sum ≤ us.length * most := by
  obtain ⟨run, oneSchedule, producers⟩ := round
  cases run with
  | nil =>
    cases paid
    simp
  | @cons _ first m _ us skip producing block validated arrived applied further =>
    have arrives : Arrives (initGenesis liquid dollar) .funds first :=
      ⟨reached, skip, producing, block, validated, (maintenance block).take 8,
        (maintenance block).drop 9, rfl, arrived⟩
    have weighted := weighted_of_arrives arrives
    have isFull := full first List.mem_cons_self
    have enrolls : ∀ u ∈ first :: us, Enrolls first u :=
      List.forall_mem_cons.mpr ⟨refl first,
        further.enrolls oneSchedule (enrolls_afterFunds arrived applied)⟩
    have produced := producers first rfl
    have pays : List.Forall₂ (fun (u : ChainState) (split : FundSplit) =>
        split.witnessReward.toInt *
          (first.witnessSchedule.witnessPayNormalizationFactor : Int) ≤
        split.witnessShare.toInt * (21 * (first.payWeight u.dgp.currentWitness : Int)))
        (first :: us) splits := by
      refine ((List.forall₂_and_left (p := (· ∈ first :: us)) _ _).mpr
        ⟨fun u listed => listed, paid⟩).imp fun u split given => ?_
      obtain ⟨listed, _, split⟩ := given
      refine witnessReward_le weighted isFull (enrolls u listed) (normal u listed) ?_ split
        (produced.mem_iff.mp (List.mem_map_of_mem listed))
      exact Int64.le_iff_toInt_le.mp (supply u listed)
    have sum := sum_pays_le pays largest
    have weights : ((first :: us).map fun u => first.payWeight u.dgp.currentWitness).sum =
        first.witnessSchedule.witnessPayNormalizationFactor := by
      rw [weighted.total isFull, ← (produced.map _).sum_eq, List.map_map]
      rfl
    have length : (first :: us).length = 21 := by
      have count := produced.length_eq
      rw [List.length_map, WitnessSchedule.scheduledWitnesses, List.length_map, List.length_range,
        isFull] at count
      exact count
    have positive : (0 : Int) < first.witnessSchedule.witnessPayNormalizationFactor := by
      have bounds := weighted.total_bounds isFull
      omega
    rw [weights, ← Int.mul_assoc, Int.mul_comm most 21] at sum
    rw [length]
    exact Int.le_of_mul_le_mul_right sum positive

/-! ### A full round and a short one -/

/-- Apply blocks, and collect the states in which they pay. -/
def payStates : List SignedBlock → ChainState → Option (List ChainState × ChainState)
  | [], s => some ([], s)
  | block :: rest, s =>
    match untilFunds {} false block s, applyBlock {} false block s with
    | .ok _ u, .ok _ m => (payStates rest m).map fun (us, t) => (u :: us, t)
    | _, _ => none

theorem payRun_of_payStates {blocks : List SignedBlock}
    (applied : payStates blocks s = some (us, t)) : PayRun s us t := by
  induction blocks generalizing s us with
  | nil =>
    cases applied
    exact .nil
  | cons block rest inductionHypothesis =>
    rw [payStates] at applied
    split at applied
    · next u m arrived finished =>
      obtain ⟨⟨others, _⟩, further, same⟩ := Option.map_eq_some_iff.mp applied
      cases same
      exact .cons {} false block rfl arrived finished (inductionHypothesis further)
    · cases applied

theorem PayRun.reachable {start : ChainState} (run : PayRun s us t) (reached : Reachable start s) :
    Reachable start t := by
  induction run with
  | nil => exact reached
  | cons skip producing block validated _ applied _ inductionHypothesis =>
    refine inductionHypothesis (.step reached (.block skip producing block) ?_ trivial applied)
    rw [ChainStep.validated, validated]
    rfl

/-- A check of the states in which some blocks pay that follow others. -/
def checkRound (start : ChainState) (earlier round : List SignedBlock)
    (check : List ChainState → Bool) : Bool :=
  match payStates earlier start with
  | none => false
  | some (_, s) =>
    match payStates round s with
    | none => false
    | some (us, _) => check us

theorem exists_of_checkRound {start : ChainState} {earlier round : List SignedBlock}
    {check : List ChainState → Bool} (checked : checkRound start earlier round check = true) :
    ∃ s us t, Reachable start s ∧ PayRun s us t ∧ check us = true := by
  unfold checkRound at checked
  split at checked
  · cases checked
  · next s before =>
    split at checked
    · cases checked
    · next us t applied =>
      exact ⟨s, us, t, (payRun_of_payStates before).reachable .start, payRun_of_payStates applied,
        checked⟩

/-- What a block pays is within bounds. -/
def ChainState.paysWithin (state : ChainState) (check : FundSplit → Bool) : Bool :=
  match splitFunds state with
  | .ok split _ => check split
  | .error _ _ => false

theorem splits_of_paysWithin {check : FundSplit → Bool} (pays : ∀ u ∈ us, u.paysWithin check) :
    ∃ splits, List.Forall₂ (fun u split => ∃ m, splitFunds u = .ok split m) us splits ∧
      ∀ split ∈ splits, check split := by
  induction us with
  | nil => exact ⟨[], .nil, List.forall_mem_nil _⟩
  | cons u rest inductionHypothesis =>
    obtain ⟨pay, later⟩ := List.forall_mem_cons.mp pays
    obtain ⟨splits, paid, checked⟩ := inductionHypothesis later
    unfold ChainState.paysWithin at pay
    split at pay
    · next split m run =>
      exact ⟨split :: splits, .cons ⟨m, run⟩ paid, List.forall_mem_cons.mpr ⟨pay, checked⟩⟩
    · cases pay

/-- A chain past its bootstrap phase from the start. -/
def inflatedGenesis : ChainState := initGenesis 200000000000 0

/-- Twenty more accounts that become witnesses. -/
def moreWitnesses : List AccountName :=
  (List.range 20).map fun i => AccountName.ofChars ['w', 'i', 't', Char.ofNat (97 + i)]

def enlistment : List SignedTransaction :=
  let keyed : Authority := ⟨1, [], [(genesisPublicKey, 1)]⟩
  let created := genesisVote [genesisPublicKey]
  [{ created with
      operations := moreWitnesses.map fun name => .accountCreate
        ⟨⟨0, .liquid⟩, AccountName.genesis, name, keyed, keyed, keyed, ⟨[], true⟩⟩ },
    { created with
      id := 2
      operations := moreWitnesses.map fun name => .witnessUpdate
        ⟨name, [104], genesisPublicKey, ⟨0, true, 65536, 0⟩, ⟨0, .liquid⟩⟩ }]

/-- The blocks of the first round in which the other witnesses are scheduled as well, each given by
the place of its witness among them. The genesis witness produces the first block, so it lets its
slot pass later. -/
def fullRound : List SignedBlock :=
  let order := [19, 1, 12, 18, 0, 7, 17, 16, 6, 8, 10, 14, 13, 5, 4, 3, 15, 2, 9, 11]
  genesisBlock ⟨20, 1⟩ [] :: order.zipIdx.map fun (witness, place) =>
    { genesisBlock ⟨21 + place, 1⟩ [] with
      timestamp := genesisTime + UInt32.ofNat (3 * (if place < 17 then 22 + place else 23 + place))
      witness := moreWitnesses.getD witness AccountName.genesis }

/-- A round of twenty-one witnesses, whose shares are at most 500. -/
theorem round_pays_fullRound :
    ∃ s us t splits, Reachable inflatedGenesis s ∧ Round s us t ∧ us.length = 21 ∧
      List.Forall₂ (fun u split => ∃ m, splitFunds u = .ok split m) us splits ∧
      (splits.map fun split => split.witnessReward.toInt).sum ≤ us.length * 500 := by
  have checked : checkRound inflatedGenesis (genesisBlocks default enlistment 20) fullRound
      (fun us => decide (us.length = 21 ∧
        (∀ u ∈ us.tail, u.dgp.headBlockNumber % 21 ≠ 0) ∧
        (∀ first ∈ us.head?, (us.map fun u => u.dgp.currentWitness).Perm
          first.witnessSchedule.scheduledWitnesses) ∧
        (∀ u ∈ us, u.dgp.isBootstrapPhase = false) ∧
        (∀ u ∈ us, 0 ≤ u.dgp.virtualLiquidSupply) ∧
        (∀ u ∈ us, u.witnessSchedule.numScheduledWitnesses = 21) ∧
        ∀ u ∈ us, u.paysWithin fun split => decide (split.witnessShare.toInt ≤ 500))) = true := by
    decide +kernel
  obtain ⟨s, us, t, reached, run, checked⟩ := exists_of_checkRound checked
  obtain ⟨length, oneSchedule, producers, normal, supply, full, pays⟩ := of_decide_eq_true checked
  obtain ⟨splits, paid, largest⟩ := splits_of_paysWithin pays
  have round : Round s us t := ⟨run, oneSchedule, producers⟩
  exact ⟨s, us, t, splits, reached, round, length, paid, round_pays reached round normal paid
    (fun split listed => of_decide_eq_true (largest split listed)) supply full⟩

/-- A round of the genesis witness alone, which is paid twenty-one times its share. -/
theorem shortRound_overpays :
    ∃ s u t split m, Reachable inflatedGenesis s ∧ Round s [u] t ∧
      u.dgp.isBootstrapPhase = false ∧ splitFunds u = .ok split m ∧
      0 < split.witnessShare.toInt ∧
      split.witnessReward.toInt = 21 * split.witnessShare.toInt := by
  have checked : checkRound inflatedGenesis (genesisBlocks default [] 20) (fullRound.take 1)
      (fun us => decide (us.length = 1 ∧
        (∀ first ∈ us.head?, (us.map fun u => u.dgp.currentWitness).Perm
          first.witnessSchedule.scheduledWitnesses) ∧
        (∀ u ∈ us, u.dgp.isBootstrapPhase = false) ∧
        ∀ u ∈ us, u.paysWithin fun split => decide (0 < split.witnessShare.toInt ∧
          split.witnessReward.toInt = 21 * split.witnessShare.toInt))) = true := by
    decide +kernel
  obtain ⟨s, us, t, reached, run, checked⟩ := exists_of_checkRound checked
  obtain ⟨length, producers, normal, pays⟩ := of_decide_eq_true checked
  obtain ⟨u, rfl⟩ := List.length_eq_one_iff.mp length
  obtain ⟨splits, paid, overpaid⟩ := splits_of_paysWithin pays
  obtain ⟨split, _, ⟨m, pay⟩, _, rfl⟩ := List.forall₂_cons_left_iff.mp paid
  exact ⟨s, u, t, split, m, reached, ⟨run, List.forall_mem_nil _, producers⟩,
    normal u List.mem_cons_self, pay, of_decide_eq_true (overpaid split List.mem_cons_self)⟩

end Zattera
