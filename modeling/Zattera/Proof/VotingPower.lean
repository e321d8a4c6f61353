/-
This file proves that voting power is rationed. The power of an account is a bucket
that holds 100% and fills up in five days; each vote on a comment that is not paid
out draws from it, and nothing else an account does touches it.
-/

import Zattera.Lib.Bucket
import Zattera.Proof.VoteTally

set_option synthInstance.maxSize 4096

namespace Zattera

open Program Trace

/-! ### Votes -/

/-- A vote that took power from the voter. -/
structure PowerUse where
  voter : AccountName
  time : TimePointSec
  usedPower : Nat
  deriving DecidableEq

/-- The power of accounts to vote, by name. -/
def ChainState.power (state : ChainState) (name : AccountName) : Option (Nat × TimePointSec) :=
  (state.accounts.find? name).map fun account => (account.votingPower, account.lastVoteTime)

/-- What takes the powers of accounts from one state to the next: a vote on a comment that is not
paid out; or something that leaves them alone, except that new accounts have all power. -/
inductive VotingStep : ChainState → Option PowerUse → ChainState → Prop
  | vote {s t : ChainState} {o : VoteOperation} {comment : Comment} {voter : Account}
      {power : VotePower} (found : s.comments.find? (o.author, cString o.permlink) = some comment)
      (unpaid : comment.cashoutTime ≠ TimePointSec.maximum)
      (isVoter : s.accounts.find? o.voter = some voter)
      (isPower : votePower voter s.dgp o.weight = .ok power)
      (run : voteEvaluator o s = .ok () t) :
      VotingStep s (some ⟨o.voter, s.dgp.time, power.usedPower⟩) t
  | other {s t : ChainState} (kept : ∀ name power, s.power name = some power →
        t.power name = some power)
      (new : ∀ name power, s.power name = none → t.power name = some power → power.1 = 10000) :
      VotingStep s none t

abbrev VotingRun : ChainState → List PowerUse → ChainState → Prop := Run VotingStep

section Steps

variable {s t : ChainState} {u : Unit} {o : VoteOperation} {comment : Comment} {voter : Account}
  {power : VotePower}

/-- Nothing happens to powers that are all the same. -/
theorem VotingStep.of_same (same : t.power = s.power) : VotingStep s none t := by
  refine .other (fun name power known => same ▸ known) fun name power absent known => ?_
  rw [same, absent] at known
  cases known

theorem VotingStep.of_insert {account : Account} (inserted : s.accounts.insert? account = some t.accounts)
    (full : account.votingPower = 10000) : VotingStep s none t := by
  have absent : s.power account.name = none := by
    unfold ChainState.power
    rw [(Table.insert?_eq_some inserted).1, Option.map_none]
  have old (name : AccountName) (different : name ≠ account.name) : t.power name = s.power name := by
    unfold ChainState.power
    rw [Table.find?_insert?_of_ne inserted different]
  refine .other (fun name power known => ?_) fun name power unknown known => ?_
  · rw [old name fun same => ?_, known]
    rw [same, absent] at known
    cases known
  · by_cases isNew : name = account.name
    · subst isNew
      unfold ChainState.power at known
      rw [Table.find?_insert?_self inserted, Option.map_some] at known
      rw [← Option.some.inj known]
      exact full
    · rw [old name isNew, unknown] at known
      cases known

theorem power_of_replace {account changed : Account}
    (replaced : t.accounts = s.accounts.replace changed)
    (found : s.accounts.find? changed.name = some account) :
    t.power = Function.update s.power changed.name
      (some (changed.votingPower, changed.lastVoteTime)) := by
  funext name
  unfold ChainState.power
  rw [replaced]
  by_cases isChanged : name = changed.name
  · subst isChanged
    rw [Function.update_self, Table.find?_replace_self found, Option.map_some]
  · rw [Function.update_of_ne isChanged, Table.find?_replace_of_ne isChanged]

theorem accounts_castVote {now : TimePointSec} (run : castVote o comment voter power now s = .ok u t) :
    ∃ spent, spendVotingPower voter power now s = .ok () spent ∧ t.accounts = spent.accounts := by
  obtain ⟨_, _, nonzero, run⟩ := bind_eq_ok.mp run
  obtain rfl := unmoved nonzero
  obtain ⟨_, _, inTime, run⟩ := bind_eq_ok.mp run
  obtain rfl := unmoved inTime
  obtain ⟨_, spent, paid, run⟩ := bind_eq_ok.mp run
  have rest : Within [.comments, .commentVotes] spent t := Respects.related _ _ _ run
  exact ⟨spent, paid, rest .accounts (by decide)⟩

theorem accounts_changeVote {vote : CommentVote} {now : TimePointSec}
    (run : changeVote o comment voter power vote now s = .ok u t) :
    ∃ spent, spendVotingPower voter power now s = .ok () spent ∧ t.accounts = spent.accounts := by
  obtain ⟨_, _, changeable, run⟩ := bind_eq_ok.mp run
  obtain rfl := unmoved changeable
  obtain ⟨_, _, other, run⟩ := bind_eq_ok.mp run
  obtain rfl := unmoved other
  obtain ⟨_, _, inTime, run⟩ := bind_eq_ok.mp run
  obtain rfl := unmoved inTime
  obtain ⟨_, spent, paid, run⟩ := bind_eq_ok.mp run
  have rest : Within [.comments, .commentVotes] spent t := Respects.related _ _ _ run
  exact ⟨spent, paid, rest .accounts (by decide)⟩

/-- A vote on a comment that is not paid out takes power from the voter. -/
theorem spends_voteEvaluator (found : s.comments.find? (o.author, cString o.permlink) = some comment)
    (unpaid : comment.cashoutTime ≠ TimePointSec.maximum) (run : voteEvaluator o s = .ok u t) :
    ∃ voter power spent, s.accounts.find? o.voter = some voter ∧
      votePower voter s.dgp o.weight = .ok power ∧
      spendVotingPower voter power s.dgp.time s = .ok () spent ∧ t.accounts = spent.accounts := by
  obtain ⟨other, voter, isFound, isVoter, ⟨paid, _⟩ | ⟨_, power, isPower, voted⟩⟩ :=
    voteEvaluator_spec run
  · rw [Option.some.inj (found.symm.trans isFound)] at unpaid
    exact absurd paid unpaid
  · rcases voted with cast | ⟨vote, _, changed⟩
    · obtain ⟨spent, spends⟩ := accounts_castVote cast
      exact ⟨voter, power, spent, isVoter, isPower, spends⟩
    · obtain ⟨spent, spends⟩ := accounts_changeVote changed
      exact ⟨voter, power, spent, isVoter, isPower, spends⟩

/-- A vote takes power from the voter alone. -/
theorem power_voteEvaluator (found : s.comments.find? (o.author, cString o.permlink) = some comment)
    (unpaid : comment.cashoutTime ≠ TimePointSec.maximum)
    (isVoter : s.accounts.find? o.voter = some voter)
    (isPower : votePower voter s.dgp o.weight = .ok power) (run : voteEvaluator o s = .ok u t) :
    t.power = Function.update s.power o.voter
      (some (power.currentPower - power.usedPower, s.dgp.time)) := by
  obtain ⟨same, used, spent, isSame, isUsed, paid, accounts⟩ := spends_voteEvaluator found unpaid run
  obtain rfl := Option.some.inj (isVoter.symm.trans isSame)
  obtain rfl := Except.ok.inj (isPower.symm.trans isUsed)
  have isName : voter.name = o.voter := Table.key_of_find? isVoter
  obtain ⟨account, isAccount, isSpent⟩ := updateAccount_eq_ok.mp paid
  rw [isName] at isAccount
  obtain rfl := Option.some.inj (isVoter.symm.trans isAccount)
  rw [← isName] at isVoter ⊢
  exact power_of_replace (accounts.trans (congrArg ChainState.accounts isSpent).symm) isVoter

theorem votePower_eq_ok {dgp : DynamicGlobalProperties} {weight : Int}
    (isPower : votePower voter dgp weight = .ok power) :
    voter.lastVoteTime.toNat < dgp.time.toNat ∧ power.usedPower ≤ power.currentPower ∧
      power.currentPower = min (voter.votingPower +
        10000 * (dgp.time.toNat - voter.lastVoteTime.toNat) / 432000) 10000 := by
  simp only [votePower, except_bind_eq_ok, ensure_eq_ok, except_pure_eq_ok, exists_and_left,
    exists_const] at isPower
  obtain ⟨_, _, _, elapsed, _, _, enough, _, _, rfl⟩ := isPower
  unfold secondsBetween at elapsed enough ⊢
  refine ⟨by omega, enough, ?_⟩
  rw [Int.toNat_sub]

end Steps

/-! ### Runs -/

instance : Overlooks (Reaches VotingStep) (Either (Covered (.dgp :: Part.tables))
    (Among [.part .accounts, .account .liquid, .account .savings, .account .dollars,
      .account .savingsDollars, .account .rewards, .account .owed, .account .shares,
      .account .withdrawal, .account .proxied, .account .proxy, .account .requests,
      .account .ballots, .account .delegated, .account .received, .account .record])) where
  holds {s t} same := by
    refine reaches_of_step (.of_same ?_)
    let view (account : Account) := (account.name, account.votingPower, account.lastVoteTime)
    have alike : t.accounts.objects.map view = s.accounts.objects.map view := by
      refine Table.map_eq_of_facetOf (same .names (by decide)) fun first second named agree => ?_
      have power := agree .power (same (.account .power) (by decide))
      exact Prod.ext named
        (congrArg (fun account : Account => (account.votingPower, account.lastVoteTime)) power :)
    funext name
    have seen := congrArg (Option.map Prod.snd) (Table.map_find?_congr (congrArg Prod.fst) alike name)
    rwa [Option.map_map, Option.map_map] at seen

/-- A new account has all power. -/
instance (name creator : AccountName) (owner active posting : Authority) (received : ShareType) :
    Respects (Reaches VotingStep) (createAccount name creator owner active posting received) := by
  refine .step inferInstance fun state => .step (respects_create fun s added inserted => ?_)
    fun _ => inferInstance
  exact reaches_of_step (.of_insert inserted rfl)

instance (o : VoteOperation) : Respects (Reaches VotingStep) (voteEvaluator o) where
  related s u t run := by
    obtain ⟨comment, voter, found, isVoter, ⟨_, rfl⟩ | ⟨unpaid, power, isPower, _⟩⟩ :=
      voteEvaluator_spec run
    · exact reaches_of_step (.of_same rfl)
    · exact reaches_of_step (.vote found unpaid isVoter isPower run)

instance (producing : Bool) (op : Operation) :
    Respects (Reaches VotingStep) (applyOperation producing op) := by
  cases op with
  | vote o => exact inferInstanceAs (Respects _ (voteEvaluator o))
  | accountCreate o | accountCreateWithDelegation o => exact respects_payment rfl
  | createClaimedAccount o =>
    dsimp only [applyOperation, createClaimedAccountEvaluator]
    repeat with_reducible refine .step inferInstance fun _ => ?_
    exact .step (overlooked_modifyAccount [.record] fun _ => .bind fun _ => .pure rfl)
      fun _ => inferInstance
  | _ => exact respects_of_aspects (beside_applyOperation producing _) (of_decide_eq_true rfl)

theorem reaches_votingStep {step : ChainStep} (validated : step.validated) :
    Respects (Reaches VotingStep) step.run := by
  refine respects_run_of_each validated (fun _ _ _ _ => inferInstance) fun blockStep => ?_
  refine respects_of_aspects (beside_blockStep blockStep) ?_
  cases blockStep <;> exact of_decide_eq_true rfl

/-! ### Rations -/

/-- Voting power is regenerated over five days. -/
def powerRate : Bucket.Rate where
  capacity := 10000
  inflow seconds := 10000 * seconds / 432000
  superadditive first second := by omega

/-- The power of an account as a bucket. -/
def ChainState.powerLevel (name : AccountName) (state : ChainState) : Option Bucket.Level :=
  (state.power name).map fun power => ⟨power.1, power.2.toNat⟩

/-- What a vote draws from the power of an account. -/
def PowerUse.draw (name : AccountName) (use : PowerUse) : Option Bucket.Draw :=
  if use.voter = name then some ⟨use.time.toNat, use.usedPower⟩ else none

/-- The power an account has used in votes between two times. -/
def powerUsed (voter : AccountName) (first last : TimePointSec) (uses : List PowerUse) : Nat :=
  ((uses.filter fun use => decide (use.voter = voter ∧ first ≤ use.time ∧ use.time ≤ last)).map
    PowerUse.usedPower).sum

theorem taken_draws (voter : AccountName) (first last : TimePointSec) (uses : List PowerUse) :
    Bucket.taken first.toNat last.toNat (uses.filterMap (PowerUse.draw voter)) =
      powerUsed voter first last uses := by
  unfold Bucket.taken powerUsed
  induction uses with
  | nil => rfl
  | cons use rest inductionHypothesis =>
    rw [List.filterMap_cons, List.filter_cons]
    by_cases isVoter : use.voter = voter
    · rw [PowerUse.draw, if_pos isVoter]
      simp only [isVoter, true_and, List.filter_cons, UInt32.le_iff_toNat_le]
      split
      · rw [List.map_cons, List.map_cons, List.sum_cons, List.sum_cons, inductionHypothesis]
        rfl
      · exact inductionHypothesis
    · rw [PowerUse.draw, if_neg isVoter, if_neg]
      · exact inductionHypothesis
      · simp [isVoter]

/-- A vote draws from the power of its voter. -/
theorem VotingStep.draws {s t : ChainState} {use : Option PowerUse} (name : AccountName)
    (step : VotingStep s use t) :
    Bucket.Step powerRate (s.powerLevel name) (use.bind (PowerUse.draw name))
      (t.powerLevel name) := by
  cases step with
  | @vote _ o comment voter power found unpaid isVoter isPower run =>
    have after := power_voteEvaluator found unpaid isVoter isPower run
    rw [Option.bind_some, PowerUse.draw]
    by_cases isName : o.voter = name
    · subst isName
      obtain ⟨later, enough, current⟩ := votePower_eq_ok isPower
      have level : s.powerLevel o.voter = some ⟨voter.votingPower, voter.lastVoteTime.toNat⟩ := by
        unfold ChainState.powerLevel ChainState.power
        rw [isVoter]
        rfl
      have left : t.powerLevel o.voter =
          some ⟨power.currentPower - power.usedPower, s.dgp.time.toNat⟩ := by
        unfold ChainState.powerLevel
        rw [after, Function.update_self]
        rfl
      rw [if_pos rfl, level, left]
      refine .drawn later.le rfl ?_
      exact (Nat.sub_add_cancel enough).trans current
    · have same : t.powerLevel name = s.powerLevel name := by
        unfold ChainState.powerLevel
        rw [after, Function.update_of_ne (Ne.symm isName)]
      rw [if_neg isName, same]
      exact .idle
  | other kept new =>
    unfold ChainState.powerLevel
    cases known : s.power name with
    | some power =>
      rw [kept name power known]
      exact .idle
    | none =>
      cases new' : t.power name with
      | none => exact .idle
      | some power => exact .placed (new name power known new').le

theorem fits_initGenesis {liquid dollar : ShareType} (name : AccountName) :
    ∀ level ∈ (initGenesis liquid dollar).powerLevel name, level.amount ≤ powerRate.capacity := by
  intro level isLevel
  obtain ⟨power, isPower, rfl⟩ := Option.map_eq_some_iff.mp isLevel
  obtain ⟨account, found, rfl⟩ := Option.map_eq_some_iff.mp isPower
  have member : account ∈ [_, _, _] := Table.mem_of_find? found
  have full : account.votingPower = 10000 := by
    simp only [List.mem_cons, List.not_mem_nil, or_false] at member
    rcases member with rfl | rfl | rfl <;> rfl
  exact full.le

/-- A vote on a comment that is not paid out shows in the powers. -/
theorem VotingStep.not_silent {s t : ChainState} {o : VoteOperation} {comment : Comment} {u : Unit}
    (found : s.comments.find? (o.author, cString o.permlink) = some comment)
    (unpaid : comment.cashoutTime ≠ TimePointSec.maximum) (run : voteEvaluator o s = .ok u t) :
    ¬ VotingStep s none t := by
  rintro ⟨⟩
  next kept _ =>
    obtain ⟨voter, power, _, isVoter, isPower, _⟩ := spends_voteEvaluator found unpaid run
    have before : s.power o.voter = some (voter.votingPower, voter.lastVoteTime) :=
      congrArg (Option.map _) isVoter
    have after : t.power o.voter = some (power.currentPower - power.usedPower, s.dgp.time) := by
      rw [power_voteEvaluator found unpaid isVoter isPower run, Function.update_self]
    have sameTime : voter.lastVoteTime = s.dgp.time :=
      congrArg Prod.snd (Option.some.inj ((kept _ _ before).symm.trans after))
    have later := (votePower_eq_ok isPower).1
    rw [sameTime] at later
    exact lt_irrefl _ later

/-- Whatever happens on a chain, powers change by votes alone, which a step that is no vote cannot
hide; no account has more than all power, and between two times its votes take no more than that
and what is regenerated. -/
theorem voting_power_is_rationed {liquid dollar : ShareType} :
    (∀ state, Reachable (initGenesis liquid dollar) state →
      ∃ uses, VotingRun (initGenesis liquid dollar) uses state) ∧
    (∀ s o t comment, s.comments.find? (o.author, cString o.permlink) = some comment →
      comment.cashoutTime ≠ TimePointSec.maximum → voteEvaluator o s = .ok () t →
      ¬ VotingStep s none t) ∧
    ∀ uses state, VotingRun (initGenesis liquid dollar) uses state →
      (∀ account ∈ state.accounts.objects, account.votingPower ≤ 10000) ∧
      ∀ voter first last, first ≤ last → powerUsed voter first last uses ≤
        10000 + 10000 * (last.toNat - first.toNat) / 432000 := by
  refine ⟨fun state reached => ?_, fun s o t comment => VotingStep.not_silent, fun uses state run => ?_⟩
  · refine @ReachableBy.invariant _ _ (Reaches VotingStep (initGenesis liquid dollar)) ⟨[], .start⟩
      (fun before after step reaches validated _ accepted => ?_) _ reached
    exact IsTrans.trans _ _ _ reaches ((reaches_votingStep validated).related before _ after accepted)
  · have rationed (name : AccountName) := Bucket.rationed_of_run (fits_initGenesis name)
      (run.map (ChainState.powerLevel name) (PowerUse.draw name) (VotingStep.draws name))
    refine ⟨fun account stored => ?_, fun voter first last ordered => ?_⟩
    · have level : state.powerLevel account.name =
          some ⟨account.votingPower, account.lastVoteTime.toNat⟩ := by
        unfold ChainState.powerLevel ChainState.power
        rw [Table.find?_of_mem stored]
        rfl
      exact ((rationed account.name).2 _ level).fits
    · rw [← taken_draws]
      cases level : state.powerLevel voter with
      | none =>
        rw [(rationed voter).1 level]
        exact Nat.zero_le _
      | some left =>
        exact ((rationed voter).2 left level).bound _ _ (UInt32.le_iff_toNat_le.mp ordered)

/-- The genesis account takes vests and posts. -/
def preparePost : Chain Unit := do
  transferToVestingEvaluator ⟨AccountName.genesis, AccountName.genesis, ⟨1000000, .liquid⟩⟩
  commentEvaluator genesisPost

/-- A vote of the genesis account for its post. -/
def fullVote : VoteOperation := ⟨AccountName.genesis, AccountName.genesis, [98], 10000⟩

/-- After the vote some power has been used, and within the second no more can be than there is. -/
theorem fullVote_is_rationed :
    ∃ uses use state, VotingRun (initGenesis 1000000000 0) (uses ++ [use]) state ∧
      use.voter = AccountName.genesis ∧
      powerUsed AccountName.genesis genesisTime genesisTime (uses ++ [use]) ≤ 10000 := by
  have finished : ∃ u prepared, preparePost (initGenesis 1000000000 0) = .ok u prepared ∧
      (prepared.comments.find? (fullVote.author, cString fullVote.permlink)).any
        (fun comment => decide (comment.cashoutTime ≠ TimePointSec.maximum)) ∧
      Finishes (voteEvaluator fullVote) prepared := by decide +kernel
  obtain ⟨_, prepared, prepare, posted, _, state, voted⟩ := finished
  have prepares : Respects (Reaches VotingStep) preparePost := by
    have vests (o : TransferToVestingOperation) :
        Respects (Reaches VotingStep) (transferToVestingEvaluator o) :=
      inferInstanceAs (Respects _ (applyOperation false (.transferToVesting o)))
    have posts (o : CommentOperation) : Respects (Reaches VotingStep) (commentEvaluator o) :=
      inferInstanceAs (Respects _ (applyOperation false (.comment o)))
    dsimp only [preparePost]
    infer_instance
  obtain ⟨uses, first⟩ := prepares.related _ _ _ prepare
  cases found : prepared.comments.find? (fullVote.author, cString fullVote.permlink) with
  | none =>
    rw [found] at posted
    cases posted
  | some comment =>
    rw [found] at posted
    have unpaid := of_decide_eq_true posted
    obtain ⟨voter, power, _, isVoter, isPower, _⟩ := spends_voteEvaluator found unpaid voted
    have run := first.event (.vote found unpaid isVoter isPower voted)
    refine ⟨uses, _, state, run, rfl, ?_⟩
    exact (voting_power_is_rationed.2.2 _ state run).2 _ _ _ (UInt32.le_refl _)

end Zattera
