/-
This file proves when `minimize_required_signatures` finds a minimal set of
signatures. The candidates come from a search that, unlike the verification, lets
no other authority stand in for a posting or an active authority, so it may find
too few. Where it finds enough, and the authorities fit the limits, verification
is a plan made of walks: which keys are met and whether they suffice depends on
the keys alone, more keys never hurt, and fewer keys are never left over. That
makes erasing one key after another end in a minimal set, with no exception that
is not caught.
-/

import Zattera.Proof.AuthorityWalk

namespace Zattera

open Program

variable {auth : Authority} {keys met : List PublicKey}
  {getActive : AccountName → Except ChainError Authority} {error : ChainError} {found : Walk}
  {depth weight membership : Nat} {env : SignEnv} {id : AccountName}
  {ask : List PublicKey → Except ChainError Walk} {key : PublicKey}

/-! ### Walks with the same keys where it matters -/

section Agreement

variable {keys other : List PublicKey} {maxMembership threshold : Nat}

theorem walkKeys_agree {items : List (PublicKey × Nat)}
    (agree : ∀ key ∈ (walkKeys keys maxMembership threshold items weight membership).2,
      key ∈ keys ↔ key ∈ other) :
    walkKeys other maxMembership threshold items weight membership =
      walkKeys keys maxMembership threshold items weight membership := by
  induction items generalizing weight membership with
  | nil => rfl
  | cons item rest inductionHypothesis =>
    obtain ⟨key, extra⟩ := item
    have head : key ∈ keys ↔ key ∈ other := by
      refine agree key ?_
      unfold walkKeys
      dsimp only
      generalize (if key ∈ keys then weight + extra else weight) = counted
      split
      · exact List.mem_cons_self
      · split <;> exact List.mem_cons_self
    unfold walkKeys at agree ⊢
    simp only [← head] at agree ⊢
    generalize (if key ∈ keys then weight + extra else weight) = counted at agree ⊢
    split
    · rfl
    · next short =>
      rw [if_neg short] at agree
      split
      · rfl
      · next unlimited =>
        rw [if_neg unlimited] at agree
        rw [inductionHypothesis fun key member => agree key (List.mem_cons_of_mem _ member)]

theorem walkMembers_agree {first second : AccountName → Except ChainError Walk}
    {accounts : List (AccountName × Nat)}
    (walked : walkMembers maxMembership threshold first accounts weight membership = .ok found)
    (asks : ∀ name answer, first name = .ok answer → answer.met ⊆ found.met →
      second name = .ok answer) :
    walkMembers maxMembership threshold second accounts weight membership = .ok found := by
  induction accounts generalizing weight membership found with
  | nil => exact walked
  | cons item rest inductionHypothesis =>
    obtain ⟨name, extra⟩ := item
    rw [walkMembers] at walked ⊢
    obtain ⟨answer, asked, walked⟩ := except_bind_eq_ok.mp walked
    refine except_bind_eq_ok.mpr ⟨answer, asks _ answer asked ?_, ?_⟩
    · dsimp only at walked
      generalize (if answer.verdict = true then weight + extra else weight) = counted at walked
      split at walked
      · obtain rfl := Except.ok.inj walked
        exact List.Subset.refl _
      · split at walked
        · obtain rfl := Except.ok.inj walked
          exact List.Subset.refl _
        · obtain ⟨later, _, same⟩ := except_bind_eq_ok.mp walked
          obtain rfl := Except.ok.inj same
          exact List.subset_append_left _ _
    · dsimp only at walked ⊢
      generalize (if answer.verdict = true then weight + extra else weight) = counted at walked ⊢
      split
      · next enough =>
        rw [if_pos enough] at walked
        exact walked
      · next short =>
        rw [if_neg short] at walked
        split
        · next limited =>
          rw [if_pos limited] at walked
          exact walked
        · next unlimited =>
          rw [if_neg unlimited] at walked
          obtain ⟨later, walkedLater, same⟩ := except_bind_eq_ok.mp walked
          obtain rfl := Except.ok.inj same
          refine except_bind_eq_ok.mpr ⟨later, inductionHypothesis walkedLater ?_, rfl⟩
          exact fun name answer asked sub =>
            asks name answer asked (List.subset_append_of_subset_right _ sub)

theorem walkWith_agree {first second : AccountName → Except ChainError Walk}
    (walked : walkWith keys maxMembership first auth = .ok found)
    (agree : ∀ key ∈ found.met, key ∈ keys ↔ key ∈ other)
    (asks : ∀ name answer, first name = .ok answer → answer.met ⊆ found.met →
      second name = .ok answer) : walkWith other maxMembership second auth = .ok found := by
  have keysMet : (walkKeys keys maxMembership auth.weightThreshold auth.keyAuths 0 0).2 ⊆
      found.met := by
    unfold walkWith at walked
    split at walked
    · next same =>
      obtain rfl := Except.ok.inj walked
      rw [same]
      exact List.Subset.refl _
    · next same =>
      obtain ⟨later, _, final⟩ := except_bind_eq_ok.mp walked
      obtain rfl := Except.ok.inj final
      rw [same]
      exact List.subset_append_left _ _
  unfold walkWith at walked ⊢
  rw [walkKeys_agree fun key member => agree key (keysMet member)]
  split
  · next same =>
    rw [same] at walked
    exact walked
  · next same =>
    rw [same] at walked
    obtain ⟨later, walkedLater, final⟩ := except_bind_eq_ok.mp walked
    obtain rfl := Except.ok.inj final
    refine except_bind_eq_ok.mpr ⟨later, walkMembers_agree walkedLater ?_, rfl⟩
    exact fun name answer asked sub =>
      asks name answer asked (List.subset_append_of_subset_right _ sub)

/-- A walk depends on the keys it meets only. -/
theorem walk_agree (walked : walk getActive maxMembership keys depth auth = .ok found)
    (agree : ∀ key ∈ found.met, key ∈ keys ↔ key ∈ other) :
    walk getActive maxMembership other depth auth = .ok found := by
  induction depth generalizing auth found with
  | zero => exact walkWith_agree walked agree fun _ _ asked _ => asked
  | succ deeper inductionHypothesis =>
    refine walkWith_agree walked agree fun name answer asked sub => ?_
    split
    · next wildcard =>
      rw [if_pos wildcard] at asked
      exact asked
    · next proper =>
      rw [if_neg proper] at asked
      obtain ⟨next, active, asked⟩ := except_bind_eq_ok.mp asked
      exact except_bind_eq_ok.mpr ⟨next, active, inductionHypothesis asked fun key member =>
        agree key (sub member)⟩

/-- Every account to look at, down to the given depth, has an authority. -/
def KnownBelow (getActive : AccountName → Except ChainError Authority) : Nat → Authority → Prop
  | 0, _ => True
  | deeper + 1, auth => ∀ item ∈ auth.accountAuths, item.1.toStdString ≠ AccountName.temp →
    ∃ next, getActive item.1.toStdString = .ok next ∧ KnownBelow getActive deeper next

theorem walkMembers_ok {ask : AccountName → Except ChainError Walk}
    {accounts : List (AccountName × Nat)}
    (each : ∀ item ∈ accounts, ∃ answer, ask item.1.toStdString = .ok answer) :
    ∃ found, walkMembers maxMembership threshold ask accounts weight membership = .ok found := by
  induction accounts generalizing weight membership with
  | nil => exact ⟨_, rfl⟩
  | cons item rest inductionHypothesis =>
    obtain ⟨answer, asked⟩ := each item List.mem_cons_self
    simp only [walkMembers, except_bind_eq_ok, asked, Except.ok.injEq, exists_eq_left']
    generalize (if answer.verdict = true then weight + item.2 else weight) = counted
    split
    · exact ⟨_, rfl⟩
    · split
      · exact ⟨_, rfl⟩
      · obtain ⟨later, walked⟩ := inductionHypothesis
          fun other member => each other (List.mem_cons_of_mem item member)
        exact ⟨_, except_bind_eq_ok.mpr ⟨later, walked, rfl⟩⟩

theorem walkWith_ok {ask : AccountName → Except ChainError Walk}
    (each : ∀ item ∈ auth.accountAuths, ∃ answer, ask item.1.toStdString = .ok answer) :
    ∃ found, walkWith keys maxMembership ask auth = .ok found := by
  unfold walkWith
  split
  · exact ⟨_, rfl⟩
  · obtain ⟨later, walked⟩ := walkMembers_ok each
    exact ⟨_, except_bind_eq_ok.mpr ⟨later, walked, rfl⟩⟩

/-- A walk over known accounts comes to a verdict. -/
theorem walk_ok (known : KnownBelow getActive depth auth) :
    ∃ found, walk getActive maxMembership keys depth auth = .ok found := by
  induction depth generalizing auth with
  | zero => exact walkWith_ok fun _ _ => ⟨_, rfl⟩
  | succ deeper inductionHypothesis =>
    refine walkWith_ok fun item member => ?_
    split
    · exact ⟨_, rfl⟩
    · next proper =>
      obtain ⟨next, active, below⟩ := known item member proper
      obtain ⟨found, walked⟩ := inductionHypothesis below
      exact ⟨found, except_bind_eq_ok.mpr ⟨next, active, walked⟩⟩

end Agreement

/-! ### Plans made of walks -/

/-- A walk that depends on the keys that sign as walks over authorities do. -/
structure SteadyWalk (ask : List PublicKey → Except ChainError Walk) : Prop where
  more : ∀ {few many}, few ⊆ many → Outdone (ask few) (ask many)
  agree : ∀ {keys other found}, ask keys = .ok found →
    (∀ key ∈ found.met, key ∈ keys ↔ key ∈ other) → ask other = .ok found

theorem steadyWalk_walk (getActive : AccountName → Except ChainError Authority)
    (maxMembership depth : Nat) (auth : Authority) :
    SteadyWalk fun keys => walk getActive maxMembership keys depth auth where
  more larger := walk_outdone larger depth auth
  agree walked agree := walk_agree walked agree

theorem SteadyWalk.bind {α : Type} {source : Except ChainError α}
    {ask : α → List PublicKey → Except ChainError Walk} (each : ∀ a, SteadyWalk (ask a)) :
    SteadyWalk fun keys => source >>= fun a => ask a keys where
  more larger := .bind fun a => (each a).more larger
  agree walked agree := by
    obtain ⟨a, made, walked⟩ := except_bind_eq_ok.mp walked
    exact except_bind_eq_ok.mpr ⟨a, made, (each a).agree walked agree⟩

theorem steadyWalk_askAccount (getActive : AccountName → Except ChainError Authority)
    (maxMembership depth : Nat) (name : AccountName) :
    SteadyWalk fun keys => askAccount getActive maxMembership keys depth name where
  more larger := askAccount_outdone larger depth name
  agree {keys other found} asked agree := by
    unfold askAccount at asked ⊢
    split
    · next wildcard =>
      rw [if_pos wildcard] at asked
      exact asked
    · next proper =>
      rw [if_neg proper] at asked
      exact (SteadyWalk.bind (steadyWalk_walk getActive maxMembership depth)).agree asked agree

/-- The keys met by a computation that depends on the keys that sign. With more keys it meets no
more of them, and it depends on the keys it meets only. -/
structure Steady (plan : List PublicKey → Except ChainError (List PublicKey)) : Prop where
  more : ∀ {few many met}, few ⊆ many → plan few = .ok met →
    ∃ fewer, plan many = .ok fewer ∧ fewer ⊆ met
  agree : ∀ {keys other met}, plan keys = .ok met →
    (∀ key ∈ met, key ∈ keys ↔ key ∈ other) → plan other = .ok met

/-- It stops only because an authority is missing. -/
def Decides (plan : List PublicKey → Except ChainError (List PublicKey)) : Prop :=
  ∀ keys, (∃ met, plan keys = .ok met) ∨ ∃ e, plan keys = .error e ∧ e.isMissingAuth = true

/-- The keys two computations meet one after the other. -/
def meetBoth (first second : Except ChainError (List PublicKey)) :
    Except ChainError (List PublicKey) := do
  let met ← first
  let later ← second
  .ok (met ++ later)

theorem meetBoth_bind {α : Type} (first second : Except ChainError (List PublicKey))
    (next : List PublicKey → Except ChainError α) :
    meetBoth first second >>= next =
      first >>= fun met => second >>= fun later => next (met ++ later) := by
  cases first with
  | error e => rfl
  | ok met =>
    cases second with
    | error e => rfl
    | ok later => rfl

theorem meetBoth_eq_ok {first second : Except ChainError (List PublicKey)} :
    meetBoth first second = .ok met ↔
      ∃ early late, first = .ok early ∧ second = .ok late ∧ early ++ late = met := by
  simp only [meetBoth, except_bind_eq_ok, Except.ok.injEq]
  constructor
  · rintro ⟨early, madeFirst, late, madeSecond, same⟩
    exact ⟨early, late, madeFirst, madeSecond, same⟩
  · rintro ⟨early, late, madeFirst, madeSecond, same⟩
    exact ⟨early, madeFirst, late, madeSecond, same⟩

section Plans

variable {plan first second : List PublicKey → Except ChainError (List PublicKey)}

theorem steady_nil : Steady fun _ => .ok [] where
  more _ planned := ⟨_, planned, List.Subset.refl _⟩
  agree planned _ := planned

theorem Steady.append (steady : Steady first) (steadyNext : Steady second) :
    Steady fun keys => meetBoth (first keys) (second keys) where
  more {few many met} larger planned := by
    obtain ⟨early, late, plannedFirst, plannedSecond, rfl⟩ := meetBoth_eq_ok.mp planned
    obtain ⟨fewerEarly, againFirst, subEarly⟩ := steady.more larger plannedFirst
    obtain ⟨fewerLate, againSecond, subLate⟩ := steadyNext.more larger plannedSecond
    refine ⟨_, meetBoth_eq_ok.mpr ⟨fewerEarly, fewerLate, againFirst, againSecond, rfl⟩, ?_⟩
    exact List.append_subset.mpr ⟨List.subset_append_of_subset_left _ subEarly,
      List.subset_append_of_subset_right _ subLate⟩
  agree {keys other met} planned agree := by
    obtain ⟨early, late, plannedFirst, plannedSecond, rfl⟩ := meetBoth_eq_ok.mp planned
    refine meetBoth_eq_ok.mpr ⟨early, late, steady.agree plannedFirst fun key member =>
      agree key (List.mem_append_left _ member), ?_, rfl⟩
    exact steadyNext.agree plannedSecond fun key member =>
      agree key (List.mem_append_right _ member)

theorem Decides.append (decides : Decides first) (decidesNext : Decides second) :
    Decides fun keys => meetBoth (first keys) (second keys) := by
  intro keys
  rcases decides keys with ⟨met, planned⟩ | ⟨e, stopped, missing⟩
  · rcases decidesNext keys with ⟨later, plannedLater⟩ | ⟨e, stopped, missing⟩
    · exact .inl ⟨_, meetBoth_eq_ok.mpr ⟨met, later, planned, plannedLater, rfl⟩⟩
    · refine .inr ⟨e, ?_, missing⟩
      dsimp only
      rw [planned, stopped]
      rfl
  · refine .inr ⟨e, ?_, missing⟩
    dsimp only
    rw [stopped]
    rfl

theorem steady_collect {α : Type} {plan : α → List PublicKey → Except ChainError (List PublicKey)}
    {items : List α} (each : ∀ item, Steady (plan item)) :
    Steady fun keys => collect (fun item => plan item keys) items := by
  induction items with
  | nil => exact steady_nil
  | cons item rest inductionHypothesis => exact (each item).append inductionHypothesis

theorem decides_collect {α : Type} {plan : α → List PublicKey → Except ChainError (List PublicKey)}
    {items : List α} (each : ∀ item ∈ items, Decides (plan item)) :
    Decides fun keys => collect (fun item => plan item keys) items := by
  induction items with
  | nil => exact fun keys => .inl ⟨[], rfl⟩
  | cons item rest inductionHypothesis =>
    exact (each item List.mem_cons_self).append
      (inductionHypothesis fun other member => each other (List.mem_cons_of_mem item member))

/-- The keys met until one of some authorities approves. -/
def firstApproved (error : ChainError) :
    List (List PublicKey → Except ChainError Walk) → List PublicKey →
      Except ChainError (List PublicKey)
  | [], _ => .error error
  | ask :: rest, keys => do
    let found ← ask keys
    if found.verdict then .ok found.met
    else do
      let later ← firstApproved error rest keys
      .ok (found.met ++ later)

theorem steady_firstApproved {asks : List (List PublicKey → Except ChainError Walk)}
    (each : ∀ ask ∈ asks, SteadyWalk ask) : Steady (firstApproved error asks) := by
  induction asks with
  | nil =>
    refine ⟨fun _ planned => ?_, fun planned _ => ?_⟩
    · cases planned
    · cases planned
  | cons ask rest inductionHypothesis =>
    have head := each ask List.mem_cons_self
    have later := inductionHypothesis fun other member => each other (List.mem_cons_of_mem ask member)
    refine ⟨fun {few many met} larger planned => ?_, fun {keys other met} planned agree => ?_⟩
    · obtain ⟨found, asked, planned⟩ := except_bind_eq_ok.mp planned
      obtain ⟨better, askedAgain, verdict, sub⟩ := head.more larger found asked
      by_cases approves : better.verdict = true
      · refine ⟨better.met, except_bind_eq_ok.mpr ⟨better, askedAgain, if_pos approves⟩, ?_⟩
        split at planned
        · obtain rfl := Except.ok.inj planned
          exact sub
        · obtain ⟨rest, _, same⟩ := except_bind_eq_ok.mp planned
          obtain rfl := Except.ok.inj same
          exact List.subset_append_of_subset_left _ sub
      · rw [if_neg fun approved => approves (verdict approved)] at planned
        obtain ⟨more, plannedRest, same⟩ := except_bind_eq_ok.mp planned
        obtain rfl := Except.ok.inj same
        obtain ⟨fewer, againRest, subRest⟩ := later.more larger plannedRest
        refine ⟨better.met ++ fewer, except_bind_eq_ok.mpr ⟨better, askedAgain, ?_⟩, ?_⟩
        · rw [if_neg approves]
          exact except_bind_eq_ok.mpr ⟨fewer, againRest, rfl⟩
        · exact List.append_subset.mpr ⟨List.subset_append_of_subset_left _ sub,
            List.subset_append_of_subset_right _ subRest⟩
    · obtain ⟨found, asked, planned⟩ := except_bind_eq_ok.mp planned
      split at planned
      · next approves =>
        obtain rfl := Except.ok.inj planned
        exact except_bind_eq_ok.mpr ⟨found, head.agree asked agree, if_pos approves⟩
      · next rejects =>
        obtain ⟨more, plannedRest, same⟩ := except_bind_eq_ok.mp planned
        obtain rfl := Except.ok.inj same
        refine except_bind_eq_ok.mpr ⟨found, head.agree asked fun key member =>
          agree key (List.mem_append_left _ member), ?_⟩
        rw [if_neg rejects]
        exact except_bind_eq_ok.mpr ⟨more, later.agree plannedRest fun key member =>
          agree key (List.mem_append_right _ member), rfl⟩

theorem decides_firstApproved (missing : error.isMissingAuth = true)
    {asks : List (List PublicKey → Except ChainError Walk)}
    (each : ∀ ask ∈ asks, ∀ keys, ∃ found, ask keys = .ok found) :
    Decides (firstApproved error asks) := by
  induction asks with
  | nil => exact fun keys => .inr ⟨error, rfl, missing⟩
  | cons ask rest inductionHypothesis =>
    intro keys
    obtain ⟨found, asked⟩ := each ask List.mem_cons_self keys
    have later := inductionHypothesis (fun other member =>
      each other (List.mem_cons_of_mem ask member)) keys
    rw [firstApproved, asked]
    by_cases approves : found.verdict = true
    · exact .inl ⟨found.met, if_pos approves⟩
    · show (∃ met, (if found.verdict = true then _ else _) = Except.ok met) ∨
        ∃ e, (if found.verdict = true then _ else _) = Except.error e ∧ _
      rw [if_neg approves]
      rcases later with ⟨met, planned⟩ | ⟨e, stopped, isMissing⟩
      · exact .inl ⟨found.met ++ met, except_bind_eq_ok.mpr ⟨met, planned, rfl⟩⟩
      · refine .inr ⟨e, ?_, isMissing⟩
        rw [stopped]
        rfl

/-- If the first authority approves nothing else is asked. -/
theorem firstApproved_eq {rest : List (List PublicKey → Except ChainError Walk)}
    (asked : ask keys = .ok found) (approves : found.verdict = true) :
    firstApproved error (ask :: rest) keys = .ok found.met := by
  rw [firstApproved, asked]
  exact if_pos approves

end Plans

/-! ### Verification is a plan -/

section Verification

variable (limits : SignLimits) (getters : AuthorityGetters)

/-- The authorities asked for a posting authority, in order. -/
def postingAsks (id : AccountName) : List (List PublicKey → Except ChainError Walk) :=
  [fun keys => askAccount getters.getPosting limits.maxMembership keys limits.maxRecursion
      id.toStdString,
    fun keys => getters.getActive id.toStdString >>=
      walk getters.getPosting limits.maxMembership keys limits.maxRecursion,
    fun keys => getters.getOwner id.toStdString >>=
      walk getters.getPosting limits.maxMembership keys limits.maxRecursion]

/-- The authorities asked for an active authority, in order. -/
def activeAsks (id : AccountName) : List (List PublicKey → Except ChainError Walk) :=
  [fun keys => askAccount getters.getActive limits.maxMembership keys limits.maxRecursion
      id.toStdString,
    fun keys => getters.getOwner id.toStdString >>=
      walk getters.getActive limits.maxMembership keys limits.maxRecursion]

def ownerAsks (id : AccountName) : List (List PublicKey → Except ChainError Walk) :=
  [fun keys => getters.getOwner id.toStdString >>=
    walk getters.getActive limits.maxMembership keys limits.maxRecursion]

def otherAsks (auth : Authority) : List (List PublicKey → Except ChainError Walk) :=
  [fun keys => walk getters.getActive limits.maxMembership keys limits.maxRecursion auth]

def postingPlan (id : AccountName) : List PublicKey → Except ChainError (List PublicKey) :=
  firstApproved .txMissingPostingAuth (postingAsks limits getters id)

def activePlan (id : AccountName) : List PublicKey → Except ChainError (List PublicKey) :=
  firstApproved .txMissingActiveAuth (activeAsks limits getters id)

def ownerPlan (id : AccountName) : List PublicKey → Except ChainError (List PublicKey) :=
  firstApproved .txMissingOwnerAuth (ownerAsks limits getters id)

def otherPlan (auth : Authority) : List PublicKey → Except ChainError (List PublicKey) :=
  firstApproved .txMissingOtherAuth (otherAsks limits getters auth)

/-- The keys a verification meets, if no authority is missing. -/
def RequiredAuthorities.plan (required : RequiredAuthorities) (keys : List PublicKey) :
    Except ChainError (List PublicKey) :=
  if required.posting ≠ [] then
    collect (fun id => postingPlan limits getters id keys) required.posting
  else
    meetBoth (collect (fun auth => otherPlan limits getters auth keys) required.other)
      (meetBoth (collect (fun id => activePlan limits getters id keys) required.active)
        (collect (fun id => ownerPlan limits getters id keys) required.owner))

theorem RequiredAuthorities.steady_plan (required : RequiredAuthorities) :
    Steady (required.plan limits getters) := by
  have walks (getActive : AccountName → Except ChainError Authority)
      (source : Except ChainError Authority) :
      SteadyWalk fun keys => source >>= walk getActive limits.maxMembership keys
        limits.maxRecursion :=
    .bind (steadyWalk_walk getActive limits.maxMembership limits.maxRecursion)
  have posting (id : AccountName) : Steady (postingPlan limits getters id) := by
    refine steady_firstApproved ?_
    rw [postingAsks, List.forall_mem_cons, List.forall_mem_cons, List.forall_mem_singleton]
    exact ⟨steadyWalk_askAccount _ _ _ _, walks _ _, walks _ _⟩
  have active (id : AccountName) : Steady (activePlan limits getters id) := by
    refine steady_firstApproved ?_
    rw [activeAsks, List.forall_mem_cons, List.forall_mem_singleton]
    exact ⟨steadyWalk_askAccount _ _ _ _, walks _ _⟩
  have owner (id : AccountName) : Steady (ownerPlan limits getters id) := by
    refine steady_firstApproved ?_
    rw [ownerAsks, List.forall_mem_singleton]
    exact walks _ _
  have other (auth : Authority) : Steady (otherPlan limits getters auth) := by
    refine steady_firstApproved ?_
    rw [otherAsks, List.forall_mem_singleton]
    exact steadyWalk_walk _ _ _ _
  unfold RequiredAuthorities.plan
  by_cases isPosting : required.posting ≠ []
  · simp only [if_pos isPosting]
    exact steady_collect posting
  · simp only [if_neg isPosting]
    exact (steady_collect other).append ((steady_collect active).append (steady_collect owner))

/-- The authorities that may be asked fit the limits of a check, every account on the way has an
authority, and every required account has all three. -/
structure RequiredAuthorities.WithinReach (required : RequiredAuthorities) : Prop where
  fits : ∀ auth, required.Asks getters auth →
    (limits.signEnv (required.memberGetter getters)).Fits auth
  known : ∀ auth, required.Asks getters auth →
    KnownBelow (required.memberGetter getters) limits.maxRecursion auth
  accounts : ∀ id ∈ required.posting ++ required.active ++ required.owner,
    (∃ auth, getters.getActive id.toStdString = .ok auth) ∧
      (∃ auth, getters.getOwner id.toStdString = .ok auth) ∧
      ∃ auth, getters.getPosting id.toStdString = .ok auth

end Verification

section Reach

variable {limits : SignLimits} {getters : AuthorityGetters} {required : RequiredAuthorities}
  {keys met : List PublicKey} {s : SignState}

theorem askAccount_ok {maxMembership : Nat} {name : AccountName}
    (active : getActive name = .ok auth) (known : KnownBelow getActive depth auth) :
    ∃ found, askAccount getActive maxMembership keys depth name = .ok found := by
  unfold askAccount
  split
  · exact ⟨_, rfl⟩
  · obtain ⟨found, walked⟩ := walk_ok known
    exact ⟨found, except_bind_eq_ok.mpr ⟨auth, active, walked⟩⟩

theorem walkOf_ok {maxMembership : Nat} {source : Except ChainError Authority}
    (active : source = .ok auth) (known : KnownBelow getActive depth auth) :
    ∃ found, (source >>= walk getActive maxMembership keys depth) = .ok found := by
  obtain ⟨found, walked⟩ := walk_ok known
  exact ⟨found, except_bind_eq_ok.mpr ⟨auth, active, walked⟩⟩

theorem RequiredAuthorities.memberGetter_of_posting (isPosting : required.posting ≠ []) :
    required.memberGetter getters = getters.getPosting :=
  if_pos isPosting

theorem RequiredAuthorities.memberGetter_of_none (noPosting : ¬ required.posting ≠ []) :
    required.memberGetter getters = getters.getActive :=
  if_neg noPosting

/-- Within reach a verification stops only because an authority is missing. -/
theorem RequiredAuthorities.WithinReach.decides_plan (reach : required.WithinReach limits getters) :
    Decides (required.plan limits getters) := by
  obtain ⟨_, known, accounts⟩ := reach
  simp only [List.mem_append] at accounts
  unfold RequiredAuthorities.plan
  by_cases isPosting : required.posting ≠ []
  · rw [RequiredAuthorities.memberGetter_of_posting isPosting] at known
    simp only [if_pos isPosting]
    refine decides_collect fun id member => decides_firstApproved rfl ?_
    obtain ⟨⟨active, foundActive⟩, ⟨owner, foundOwner⟩, posting, foundPosting⟩ :=
      accounts id (.inl (.inl member))
    rw [postingAsks, List.forall_mem_cons, List.forall_mem_cons, List.forall_mem_singleton]
    exact ⟨fun keys => askAccount_ok foundPosting (known _ (.posting member foundPosting)),
      fun keys => walkOf_ok foundActive (known _ (.activeForPosting member foundActive)),
      fun keys => walkOf_ok foundOwner (known _ (.ownerForPosting member foundOwner))⟩
  · rw [RequiredAuthorities.memberGetter_of_none isPosting] at known
    simp only [if_neg isPosting]
    refine (decides_collect fun auth member => ?_).append
      ((decides_collect fun id member => ?_).append (decides_collect fun id member => ?_))
    · refine decides_firstApproved rfl ?_
      rw [otherAsks, List.forall_mem_singleton]
      exact fun keys => walk_ok (known _ (.other member))
    · refine decides_firstApproved rfl ?_
      obtain ⟨⟨active, foundActive⟩, ⟨owner, foundOwner⟩, _⟩ := accounts id (.inl (.inr member))
      rw [activeAsks, List.forall_mem_cons, List.forall_mem_singleton]
      exact ⟨fun keys => askAccount_ok foundActive (known _ (.active member foundActive)),
        fun keys => walkOf_ok foundOwner (known _ (.ownerForActive member foundOwner))⟩
    · refine decides_firstApproved rfl ?_
      obtain ⟨_, ⟨owner, foundOwner⟩, _⟩ := accounts id (.inr member)
      rw [ownerAsks, List.forall_mem_singleton]
      exact fun keys => walkOf_ok foundOwner (known _ (.owner member foundOwner))

/-- One authority is tried, and others after it if it does not approve. -/
theorem try_follows {x : SignM Bool} {rest : SignM Unit} {ask : Except ChainError Walk}
    {later : Except ChainError (List PublicKey)} (first : Follows x s ask (Agrees env keys met))
    (second : ∀ (found : Walk) (t : SignState), t.Tracks env keys (met ++ found.met) →
      Follows rest t later fun seen _ u => u.Tracks env keys (met ++ found.met ++ seen)) :
    Follows (x >>= fun accepted => if accepted = true then pure () else rest) s
      (ask >>= fun found => if found.verdict = true then .ok found.met
        else later >>= fun seen => .ok (found.met ++ seen))
      fun seen _ t => t.Tracks env keys (met ++ seen) := by
  refine first.bind fun found verdict t _ agrees => ?_
  obtain ⟨rfl, tracks⟩ := agrees
  by_cases approves : found.verdict = true
  · rw [if_pos approves, if_pos approves]
    exact .done tracks
  · rw [if_neg approves, if_neg approves]
    refine (second found t tracks).map fun seen _ u tracks => ?_
    rw [List.append_assoc] at tracks
    exact tracks

/-- Nothing is left to try. -/
theorem missing_follows :
    Follows (throw error : SignM Unit) s (firstApproved error [] keys)
      fun seen _ t => t.Tracks env keys (met ++ seen) :=
  ⟨fun _ planned => (by cases planned), fun e same => by cases same; exact ⟨s, rfl⟩⟩

theorem requirePosting_follows
    (reach : ∀ auth, required.Asks getters auth → (limits.signEnv getters.getPosting).Fits auth)
    (listed : id ∈ required.posting)
    (tracks : s.Tracks (limits.signEnv getters.getPosting) keys met) :
    Follows (requirePosting limits getters id) s (postingPlan limits getters id keys)
      fun seen _ t => t.Tracks (limits.signEnv getters.getPosting) keys (met ++ seen) := by
  refine try_follows (checkAuthorityOf_follows
    (fun auth found => reach auth (.posting listed found)) tracks) fun _ _ tracks => ?_
  refine .lift_assoc fun active found => ?_
  refine try_follows (checkAuthority_follows (reach active (.activeForPosting listed found)) tracks)
    fun _ _ tracks => ?_
  refine .lift_assoc fun owner found => ?_
  refine try_follows (checkAuthority_follows (reach owner (.ownerForPosting listed found)) tracks)
    fun _ _ tracks => missing_follows

theorem requireActive_follows
    (reach : ∀ auth, required.Asks getters auth → (limits.signEnv getters.getActive).Fits auth)
    (listed : id ∈ required.active) (tracks : s.Tracks (limits.signEnv getters.getActive) keys met) :
    Follows (requireActive limits getters id) s (activePlan limits getters id keys)
      fun seen _ t => t.Tracks (limits.signEnv getters.getActive) keys (met ++ seen) := by
  refine try_follows (checkAuthorityOf_follows
    (fun auth found => reach auth (.active listed found)) tracks) fun _ _ tracks => ?_
  refine .lift_assoc fun owner found => ?_
  refine try_follows (checkAuthority_follows (reach owner (.ownerForActive listed found)) tracks)
    fun _ _ tracks => missing_follows

theorem requireOwner_follows
    (reach : ∀ auth, required.Asks getters auth → (limits.signEnv getters.getActive).Fits auth)
    (listed : id ∈ required.owner) (tracks : s.Tracks (limits.signEnv getters.getActive) keys met) :
    Follows (requireOwner limits getters id) s (ownerPlan limits getters id keys)
      fun seen _ t => t.Tracks (limits.signEnv getters.getActive) keys (met ++ seen) := by
  refine .lift_assoc fun owner found => ?_
  refine try_follows (checkAuthority_follows (reach owner (.owner listed found)) tracks)
    fun _ _ tracks => missing_follows

theorem requireOther_follows
    (reach : ∀ auth, required.Asks getters auth → (limits.signEnv getters.getActive).Fits auth)
    (listed : auth ∈ required.other) (tracks : s.Tracks (limits.signEnv getters.getActive) keys met) :
    Follows (requireOther limits getters auth) s (otherPlan limits getters auth keys)
      fun seen _ t => t.Tracks (limits.signEnv getters.getActive) keys (met ++ seen) :=
  try_follows (checkAuthority_follows (reach auth (.other listed)) tracks)
    fun _ _ _ => missing_follows

/-- Every signature is used if every key that signs was met. -/
theorem requireNoUnusedSignatures_follows (tracks : s.Tracks (limits.signEnv getActive) keys met) :
    Follows requireNoUnusedSignatures s
      (if ∀ key ∈ keys, key ∈ met then .ok () else .error .txIrrelevantSig)
      fun (_ : Unit) _ _ => True := by
  refine .after (a := s) (t := s) rfl ?_
  have unused : s.hasUnusedSignatures = true ↔ ¬ ∀ key ∈ keys, key ∈ met := by
    rw [SignState.hasUnusedSignatures, List.any_eq_true]
    constructor
    · rintro ⟨item, stored, unmarked⟩ allMet
      have signs : item.1 ∈ keys :=
        (tracks.keys item.1).mpr (.inl (List.mem_map_of_mem stored))
      rw [(tracks.used item stored).mpr (allMet item.1 signs)] at unmarked
      exact Bool.false_ne_true unmarked
    · intro someUnmet
      push Not at someUnmet
      obtain ⟨key, signs, unmet⟩ := someUnmet
      have provided := ((tracks.keys key).mp signs).resolve_right List.not_mem_nil
      obtain ⟨item, stored, rfl⟩ := List.mem_map.mp provided
      refine ⟨item, stored, ?_⟩
      rw [Bool.not_eq_true', Bool.eq_false_iff]
      exact fun marked => unmet ((tracks.used item stored).mp marked)
  by_cases allMet : ∀ key ∈ keys, key ∈ met
  · rw [if_pos allMet, if_neg fun isUnused => unused.mp isUnused allMet]
    exact .done trivial
  · rw [if_neg allMet, if_pos (unused.mpr allMet)]
    refine ⟨fun _ planned => (by cases planned), fun e same => ?_⟩
    cases same
    exact ⟨s, rfl⟩

theorem initial_tracks_signEnv (getActive : AccountName → Except ChainError Authority)
    (keys : List PublicKey) :
    (SignState.initial keys).Tracks (limits.signEnv getActive) keys [] := by
  have tracks := SignState.initial_tracks (limits.signEnv getActive) keys
  rw [show (limits.signEnv getActive).availableKeys = [] from rfl, List.append_nil] at tracks
  exact tracks

/-- Posting authority is not combined with other authorities. -/
def RequiredAuthorities.Unmixed (required : RequiredAuthorities) : Prop :=
  required.posting ≠ [] → required.active = [] ∧ required.owner = [] ∧ required.other = []

/-- Within reach verification carries out its plan and then looks for signatures left over. -/
theorem verifyAuthorityWithin_eq (reach : required.WithinReach limits getters)
    (unmixed : required.Unmixed) :
    verifyAuthorityWithin limits required keys getters =
      required.plan limits getters keys >>= fun met =>
        if ∀ key ∈ keys, key ∈ met then .ok () else .error .txIrrelevantSig := by
  have fits := reach.fits
  have follows : Follows (if required.posting ≠ [] then verifyPosting limits required getters
      else verifyOthers limits required getters) (SignState.initial keys)
      (required.plan limits getters keys >>= fun met =>
        if ∀ key ∈ keys, key ∈ met then .ok () else .error .txIrrelevantSig)
      fun _ _ _ => True := by
    unfold RequiredAuthorities.plan
    by_cases isPosting : required.posting ≠ []
    · rw [RequiredAuthorities.memberGetter_of_posting isPosting] at fits
      obtain ⟨noActive, noOwner, noOther⟩ := unmixed isPosting
      rw [if_pos isPosting, if_pos isPosting, verifyPosting, noActive, noOwner, noOther]
      refine .after (a := ()) rfl (.after (a := ()) rfl (.after (a := ()) rfl ?_))
      refine (Follows.loop (fun id member met s tracks =>
        requirePosting_follows fits member tracks)
        (initial_tracks_signEnv getters.getPosting keys)).bind fun met _ t _ tracks => ?_
      exact requireNoUnusedSignatures_follows tracks
    · rw [RequiredAuthorities.memberGetter_of_none isPosting] at fits
      rw [if_neg isPosting, if_neg isPosting, verifyOthers, meetBoth_bind]
      simp only [meetBoth_bind]
      refine (Follows.loop (fun auth member met s tracks =>
        requireOther_follows fits member tracks)
        (initial_tracks_signEnv getters.getActive keys)).bind fun other _ _ _ tracks => ?_
      refine (Follows.loop (fun id member met s tracks =>
        requireActive_follows fits member tracks) tracks).bind fun active _ _ _ tracks => ?_
      refine (Follows.loop (fun id member met s tracks =>
        requireOwner_follows fits member tracks) tracks).bind fun owner _ _ _ tracks => ?_
      rw [List.nil_append, List.append_assoc] at tracks
      exact requireNoUnusedSignatures_follows tracks
  unfold verifyAuthorityWithin
  dsimp only
  cases planned : required.plan limits getters keys >>= fun met =>
      if ∀ key ∈ keys, key ∈ met then .ok () else .error .txIrrelevantSig with
  | ok u =>
    obtain ⟨_, _, run, _⟩ := follows.1 u planned
    rw [run]
  | error e =>
    obtain ⟨_, run⟩ := follows.2 e planned
    rw [run]

end Reach

/-! ### The candidates -/

/-- The keys met on the way to a verdict, whichever it is. -/
def metBy (asked : Except ChainError Walk) : Except ChainError (List PublicKey) :=
  asked >>= fun found => .ok found.met

/-- The keys that the search for candidates meets. -/
def RequiredAuthorities.searchPlan (limits : SignLimits) (getters : AuthorityGetters)
    (required : RequiredAuthorities) (keys : List PublicKey) :
    Except ChainError (List PublicKey) :=
  if required.posting ≠ [] then
    collect (fun id => metBy (askAccount getters.getPosting limits.maxMembership keys
      limits.maxRecursion id.toStdString)) required.posting
  else
    meetBoth (collect (fun auth => metBy (walk getters.getActive limits.maxMembership keys
        limits.maxRecursion auth)) required.other)
      (meetBoth (collect (fun id => metBy (getters.getOwner id.toStdString >>=
          walk getters.getActive limits.maxMembership keys limits.maxRecursion)) required.owner)
        (collect (fun id => metBy (askAccount getters.getActive limits.maxMembership keys
          limits.maxRecursion id.toStdString)) required.active))

section Candidates

variable {limits : SignLimits} {getters : AuthorityGetters} {required : RequiredAuthorities}
  {available keys met : List PublicKey} {s : SignState}

theorem SignEnv.Fits.search (fits : (limits.signEnv getActive).Fits auth) :
    (limits.searchEnv available getActive).Fits auth :=
  ⟨fits.depth, fits.accounts⟩

theorem discard_follows {x : SignM Bool} {asked : Except ChainError Walk}
    (follows : Follows x s asked (Agrees env keys met)) :
    Follows (discard x) s (metBy asked) fun seen _ t => t.Tracks env keys (met ++ seen) :=
  (follows.map fun _ _ _ agrees => agrees.2).discard

/-- The candidates are the available keys that the search meets. -/
theorem getRequiredSignatures_eq (reach : required.WithinReach limits getters)
    (unmixed : required.Unmixed)
    (planned : required.searchPlan limits getters available = .ok met) :
    ∃ candidates, getRequiredSignatures limits required [] available getters = .ok candidates ∧
      ∀ key, key ∈ candidates ↔ key ∈ available ∧ key ∈ met := by
  have fits := reach.fits
  -- The state at the end of the search, by whichever getter members are looked up.
  have found : ∃ (getActive : AccountName → Except ChainError Authority) (u : Unit)
      (t : SignState), (if required.posting ≠ [] then
          searchPosting limits required available getters
        else searchOthers limits required available getters) (SignState.initial []) = .ok u t ∧
      t.Tracks (limits.searchEnv available getActive) available met := by
    unfold RequiredAuthorities.searchPlan at planned
    by_cases isPosting : required.posting ≠ []
    · rw [RequiredAuthorities.memberGetter_of_posting isPosting] at fits
      rw [if_pos isPosting] at planned
      obtain ⟨noActive, noOwner, _⟩ := unmixed isPosting
      have follows := Follows.loop (fun id member met s tracks => discard_follows
        (checkAuthorityOf_follows (fun auth found =>
          (fits auth (.posting member found)).search) tracks))
        (SignState.initial_tracks (limits.searchEnv available getters.getPosting) [])
      obtain ⟨u, t, run, tracks⟩ := follows.1 met planned
      refine ⟨getters.getPosting, u, t, ?_, tracks⟩
      rw [if_pos isPosting, searchPosting, noActive, noOwner]
      exact run
    · rw [RequiredAuthorities.memberGetter_of_none isPosting] at fits
      rw [if_neg isPosting] at planned
      obtain ⟨other, _, plannedOther, plannedLater, rfl⟩ := meetBoth_eq_ok.mp planned
      obtain ⟨owner, active, plannedOwner, plannedActive, rfl⟩ := meetBoth_eq_ok.mp plannedLater
      have followsOther := Follows.loop (fun auth member met s tracks => discard_follows
        (checkAuthority_follows (fits auth (.other member)).search tracks))
        (SignState.initial_tracks (limits.searchEnv available getters.getActive) [])
      obtain ⟨_, first, runOther, tracks⟩ := followsOther.1 other plannedOther
      have followsOwner := Follows.loop
        (fun id member met s tracks => Follows.lift_assoc fun auth found => discard_follows
          (checkAuthority_follows (fits auth (.owner member found)).search tracks)) tracks
      obtain ⟨_, second, runOwner, tracks⟩ := followsOwner.1 owner plannedOwner
      have followsActive := Follows.loop (fun id member met s tracks => discard_follows
        (checkAuthorityOf_follows (fun auth found =>
          (fits auth (.active member found)).search) tracks)) tracks
      obtain ⟨u, third, runActive, tracks⟩ := followsActive.1 active plannedActive
      rw [List.nil_append, List.append_assoc] at tracks
      refine ⟨getters.getActive, u, third, ?_, tracks⟩
      rw [if_neg isPosting, searchOthers]
      exact (bind_of_ok runOther).trans ((bind_of_ok runOwner).trans runActive)
  obtain ⟨getActive, u, t, run, tracks⟩ := found
  unfold getRequiredSignatures
  dsimp only
  rw [run]
  refine ⟨_, rfl, fun key => ?_⟩
  simp only [List.mem_filter, List.mem_map, decide_eq_true_eq]
  constructor
  · rintro ⟨⟨item, ⟨stored, marked⟩, rfl⟩, isAvailable⟩
    exact ⟨isAvailable, (tracks.used item stored).mp marked⟩
  · rintro ⟨isAvailable, isMet⟩
    obtain ⟨item, stored, rfl⟩ := List.mem_map.mp (tracks.taken key isMet isAvailable)
    exact ⟨⟨item, ⟨stored, (tracks.used item stored).mpr isMet⟩, rfl⟩, isAvailable⟩

end Candidates

/-! ### Erasing one key after the other -/

section Erasing

variable {limits : SignLimits} {getters : AuthorityGetters} {required : RequiredAuthorities}

theorem mem_insertKey {other : PublicKey} :
    other ∈ insertKey key keys ↔ other = key ∨ other ∈ keys := by
  induction keys with
  | nil => exact List.mem_singleton.trans (or_iff_left List.not_mem_nil).symm
  | cons head rest inductionHypothesis =>
    rw [insertKey]
    split
    · next same =>
      rw [List.mem_cons, same, ← or_assoc, or_self]
    · split
      · exact List.mem_cons
      · rw [List.mem_cons, inductionHypothesis, List.mem_cons, or_left_comm]

/-- The keys without one of them, as `flat_set::erase` leaves them. -/
abbrev withoutKey (keys : List PublicKey) (key : PublicKey) : List PublicKey :=
  keys.filter fun other => decide (other ≠ key)

theorem mem_withoutKey {other : PublicKey} :
    other ∈ withoutKey keys key ↔ other ∈ keys ∧ other ≠ key := by
  rw [List.mem_filter, decide_eq_true_eq]

/-- The keys suffice, and none of them is left over. -/
def RequiredAuthorities.Suffices (limits : SignLimits) (getters : AuthorityGetters)
    (required : RequiredAuthorities) (keys : List PublicKey) : Prop :=
  ∃ met, required.plan limits getters keys = .ok met ∧ keys ⊆ met

/-- Without the key an authority is missing. -/
def RequiredAuthorities.Needs (limits : SignLimits) (getters : AuthorityGetters)
    (required : RequiredAuthorities) (keys : List PublicKey) (key : PublicKey) : Prop :=
  ∀ met, required.plan limits getters (withoutKey keys key) ≠ .ok met

theorem RequiredAuthorities.Suffices.congr {other : List PublicKey}
    (sufficient : required.Suffices limits getters keys) (same : ∀ key, key ∈ keys ↔ key ∈ other) :
    required.Suffices limits getters other := by
  obtain ⟨met, planned, used⟩ := sufficient
  refine ⟨met, (required.steady_plan limits getters).agree planned fun key _ => same key, ?_⟩
  exact fun key member => used ((same key).mpr member)

/-- A key that is needed among more keys is needed among fewer. -/
theorem RequiredAuthorities.Needs.fewer {fewer : List PublicKey}
    (needs : required.Needs limits getters keys key) (sub : fewer ⊆ keys) :
    required.Needs limits getters fewer key := by
  intro met planned
  have larger : withoutKey fewer key ⊆ withoutKey keys key := fun other member => by
    obtain ⟨isFewer, proper⟩ := mem_withoutKey.mp member
    exact mem_withoutKey.mpr ⟨sub isFewer, proper⟩
  obtain ⟨_, plannedMore, _⟩ := (required.steady_plan limits getters).more larger planned
  exact needs _ plannedMore

theorem verifyAuthorityWithin_eq_ok (reach : required.WithinReach limits getters)
    (unmixed : required.Unmixed) :
    verifyAuthorityWithin limits required keys getters = .ok () ↔
      required.Suffices limits getters keys := by
  rw [verifyAuthorityWithin_eq reach unmixed, except_bind_eq_ok]
  refine exists_congr fun met => and_congr_right fun _ => ?_
  by_cases used : ∀ key ∈ keys, key ∈ met
  · rw [if_pos used]
    exact iff_of_true rfl used
  · rw [if_neg used]
    exact iff_of_false (fun wrong => by cases wrong) used

/-- Erasing a key from keys that suffice leaves keys that suffice, or an authority is missing. -/
theorem verify_withoutKey (reach : required.WithinReach limits getters) (unmixed : required.Unmixed)
    (sufficient : required.Suffices limits getters keys) (key : PublicKey) :
    (verifyAuthorityWithin limits required (withoutKey keys key) getters = .ok () ∧
        required.Suffices limits getters (withoutKey keys key)) ∨
      ∃ e, verifyAuthorityWithin limits required (withoutKey keys key) getters = .error e ∧
        e.isMissingAuth = true ∧ required.Needs limits getters keys key := by
  have sub : withoutKey keys key ⊆ keys := List.filter_sublist.subset
  rcases reach.decides_plan (withoutKey keys key) with ⟨met, planned⟩ | ⟨e, stopped, missing⟩
  · -- what is met with all keys is met with fewer, so none of them is left over
    obtain ⟨all, plannedAll, used⟩ := sufficient
    obtain ⟨fewer, again, subMet⟩ := (required.steady_plan limits getters).more sub planned
    obtain rfl : fewer = all := Except.ok.inj (again.symm.trans plannedAll)
    have enough : required.Suffices limits getters (withoutKey keys key) :=
      ⟨met, planned, fun other member => subMet (used (sub member))⟩
    exact .inl ⟨(verifyAuthorityWithin_eq_ok reach unmixed).mpr enough, enough⟩
  · refine .inr ⟨e, ?_, missing, fun met planned => ?_⟩
    · rw [verifyAuthorityWithin_eq reach unmixed, stopped]
      rfl
    · rw [stopped] at planned
      cases planned

/-- The loop ends with keys that suffice, each of which is needed. The invariant is over the keys
the loop has passed: those still there are needed. -/
theorem eraseUnneeded_spec (reach : required.WithinReach limits getters)
    (unmixed : required.Unmixed) {rest result : List PublicKey}
    (sufficient : required.Suffices limits getters result)
    (passed : ∀ key ∈ result, key ∈ rest ∨ required.Needs limits getters result key) :
    ∃ final, eraseUnneeded limits required getters rest result = .ok final ∧
      required.Suffices limits getters final ∧
      ∀ key ∈ final, required.Needs limits getters final key := by
  induction rest generalizing result with
  | nil =>
    exact ⟨result, rfl, sufficient, fun key member =>
      (passed key member).resolve_left List.not_mem_nil⟩
  | cons key rest inductionHypothesis =>
    rw [eraseUnneeded]
    rcases verify_withoutKey reach unmixed sufficient key with
      ⟨accepted, enough⟩ | ⟨e, stopped, missing, needed⟩
    · rw [accepted]
      refine inductionHypothesis enough fun other member => ?_
      obtain ⟨isOld, proper⟩ := mem_withoutKey.mp member
      rcases passed other isOld with ahead | needs
      · exact .inl ((List.mem_cons.mp ahead).resolve_left proper)
      · exact .inr (needs.fewer (List.filter_sublist.subset))
    · rw [stopped]
      simp only [missing, if_true]
      by_cases present : key ∈ result
      · have same (other : PublicKey) :
            other ∈ result ↔ other ∈ insertKey key (withoutKey result key) := by
          rw [mem_insertKey, mem_withoutKey]
          constructor
          · intro member
            by_cases isKey : other = key
            · exact .inl isKey
            · exact .inr ⟨member, isKey⟩
          · rintro (rfl | ⟨member, _⟩)
            · exact present
            · exact member
        refine inductionHypothesis (sufficient.congr same) fun other member => ?_
        have back : insertKey key (withoutKey result key) ⊆ result :=
          fun again isMember => (same again).mpr isMember
        rcases passed other ((same other).mpr member) with ahead | needs
        · rcases List.mem_cons.mp ahead with rfl | later
          · exact .inr (needed.fewer back)
          · exact .inl later
        · exact .inr (needs.fewer back)
      · -- a key that is not there is not missed
        obtain ⟨met, planned, _⟩ := sufficient
        refine absurd ?_ (needed met)
        refine (required.steady_plan limits getters).agree planned fun other _ => ?_
        rw [mem_withoutKey]
        exact ⟨fun member => ⟨member, fun isKey => present (isKey ▸ member)⟩, And.left⟩

end Erasing

/-! ### Minimal signatures -/

section Minimal

variable {limits : SignLimits} {getters : AuthorityGetters} {required : RequiredAuthorities}
  {available : List PublicKey}

theorem unmixed_of_verifyAuthority
    (accepted : verifyAuthorityWithin limits required keys getters = .ok ()) :
    required.Unmixed := by
  intro isPosting
  unfold verifyAuthorityWithin at accepted
  rw [if_pos isPosting] at accepted
  dsimp only at accepted
  split at accepted
  · next run =>
    simp only [verifyPosting, bind_eq_ok, require_eq_ok, and_assoc, exists_and_left,
      exists_eq_left', exists_const, List.length_eq_zero_iff] at run
    exact ⟨run.1, run.2.1, run.2.2.1⟩
  · cases accepted

/-- The available keys satisfy every required posting or active authority itself, so that nothing
has to stand in for it. -/
structure RequiredAuthorities.OwnSatisfied (limits : SignLimits) (getters : AuthorityGetters)
    (required : RequiredAuthorities) (available : List PublicKey) : Prop where
  posting : ∀ id ∈ required.posting, Accepts (limits.signEnv getters.getPosting) [id] available
  active : ∀ id ∈ required.active, Accepts (limits.signEnv getters.getActive) [id] available

theorem approves_of_accepts
    (fits : ∀ auth, getActive id.toStdString = .ok auth → (limits.signEnv getActive).Fits auth)
    (accepted : Accepts (limits.signEnv getActive) [id] available) :
    ∃ found, askAccount getActive limits.maxMembership available limits.maxRecursion
      id.toStdString = .ok found ∧ found.verdict = true := by
  refine (acceptsAll_iff (initial_tracks_signEnv getActive available) ?_).mp accepted id
    List.mem_cons_self
  intro other member
  obtain rfl := List.mem_singleton.mp member
  exact fits

theorem metBy_of_firstApproved (planned : firstApproved error [ask] keys = .ok met) :
    metBy (ask keys) = .ok met := by
  obtain ⟨found, asked, planned⟩ := except_bind_eq_ok.mp planned
  split at planned
  · exact except_bind_eq_ok.mpr ⟨found, asked, planned⟩
  · obtain ⟨_, impossible, _⟩ := except_bind_eq_ok.mp planned
    cases impossible

theorem metBy_of_approves {rest : List (List PublicKey → Except ChainError Walk)}
    (approves : ∃ found, ask keys = .ok found ∧ found.verdict = true)
    (planned : firstApproved error (ask :: rest) keys = .ok met) : metBy (ask keys) = .ok met := by
  obtain ⟨found, asked, verdict⟩ := approves
  rw [firstApproved_eq asked verdict] at planned
  exact except_bind_eq_ok.mpr ⟨found, asked, planned⟩

/-- Where nothing has to stand in, the search for candidates meets what verification meets. -/
theorem searchPlan_of_plan (reach : required.WithinReach limits getters)
    (own : required.OwnSatisfied limits getters available)
    (planned : required.plan limits getters available = .ok met) :
    ∃ searched, required.searchPlan limits getters available = .ok searched ∧
      ∀ key, key ∈ searched ↔ key ∈ met := by
  have fits := reach.fits
  unfold RequiredAuthorities.plan at planned
  unfold RequiredAuthorities.searchPlan
  by_cases isPosting : required.posting ≠ []
  · rw [RequiredAuthorities.memberGetter_of_posting isPosting] at fits
    rw [if_pos isPosting] at planned ⊢
    refine ⟨met, collect_of_each (fun id member m one => ?_) planned, fun _ => Iff.rfl⟩
    exact metBy_of_approves (approves_of_accepts (fun auth found =>
      fits auth (.posting member found)) (own.posting id member)) one
  · rw [RequiredAuthorities.memberGetter_of_none isPosting] at fits
    rw [if_neg isPosting] at planned ⊢
    obtain ⟨other, _, plannedOther, plannedLater, rfl⟩ := meetBoth_eq_ok.mp planned
    obtain ⟨active, owner, plannedActive, plannedOwner, rfl⟩ := meetBoth_eq_ok.mp plannedLater
    have searchedOther := collect_of_each (fun auth _ m one => metBy_of_firstApproved one)
      plannedOther
    have searchedOwner := collect_of_each (fun id _ m one => metBy_of_firstApproved one)
      plannedOwner
    have searchedActive := collect_of_each (fun id member m one =>
      metBy_of_approves (approves_of_accepts (fun auth found =>
        fits auth (.active member found)) (own.active id member)) one) plannedActive
    refine ⟨_, meetBoth_eq_ok.mpr ⟨_, _, searchedOther,
      meetBoth_eq_ok.mpr ⟨_, _, searchedOwner, searchedActive, rfl⟩, rfl⟩, fun key => ?_⟩
    simp only [List.mem_append]
    rw [or_comm (a := key ∈ owner)]

end Minimal

section Example

theorem SignEnv.fits_of_no_accounts (none : auth.accountAuths = []) : env.Fits auth := by
  obtain ⟨getActive, availableKeys, maxRecursion, maxMembership, maxAccountAuths⟩ := env
  cases maxRecursion with
  | zero =>
    refine ⟨fun item member => ?_, id⟩
    rw [none] at member
    cases member
  | succ deeper =>
    refine ⟨fun item member => ?_, fun limited => ?_⟩
    · rw [none] at member
      cases member
    · show accountEntries getActive (deeper + 1) auth < maxAccountAuths
      rw [accountEntries, none]
      exact limited

theorem knownBelow_of_no_accounts (none : auth.accountAuths = []) (depth : Nat) :
    KnownBelow getActive depth auth := by
  cases depth with
  | zero => trivial
  | succ deeper =>
    intro item member
    rw [none] at member
    cases member

namespace KeyHolder

def alice : AccountName := .ofChars ['a', 'l', 'i', 'c', 'e']

/-- Two of three keys for active authority, and a key for each of the others. -/
def getters : AuthorityGetters where
  getActive name := if name = alice then .ok ⟨2, [], [(⟨1⟩, 1), (⟨2⟩, 1), (⟨3⟩, 1)]⟩
    else .error .unknownKey
  getOwner name := if name = alice then .ok (.ofKey ⟨4⟩) else .error .unknownKey
  getPosting name := if name = alice then .ok (.ofKey ⟨5⟩) else .error .unknownKey

/-- An unsigned transaction that requires active authority. -/
def vote : SignedTransaction where
  id := 0
  refBlockNum := 0
  refBlockPrefix := 0
  expiration := 0
  operations := [.accountWitnessVote ⟨alice, alice, true⟩]
  signatures := []

theorem vote_required : vote.requiredAuthorities = ⟨[alice], [], [], []⟩ := by
  decide +kernel

theorem accountAuths_eq_nil {name : AccountName}
    (found : getters.getActive name = .ok auth ∨ getters.getOwner name = .ok auth) :
    auth.accountAuths = [] := by
  rcases found with found | found
  · dsimp only [getters] at found
    split at found
    · obtain rfl := Except.ok.inj found
      rfl
    · cases found
  · dsimp only [getters] at found
    split at found
    · obtain rfl := Except.ok.inj found
      rfl
    · cases found

theorem vote_asks (asked : vote.requiredAuthorities.Asks getters auth) :
    auth.accountAuths = [] := by
  rw [vote_required] at asked
  cases asked with
  | posting listed found => cases listed
  | activeForPosting listed found => cases listed
  | ownerForPosting listed found => cases listed
  | active listed found => exact accountAuths_eq_nil (.inl found)
  | ownerForActive listed found => exact accountAuths_eq_nil (.inr found)
  | owner listed found => cases listed
  | other listed => cases listed

theorem vote_withinReach : vote.requiredAuthorities.WithinReach .standard getters where
  fits auth asked := SignEnv.fits_of_no_accounts (vote_asks asked)
  known auth asked := knownBelow_of_no_accounts (vote_asks asked) _
  accounts id member := by
    rw [vote_required] at member
    obtain rfl := List.mem_singleton.mp member
    have same : alice.toStdString = alice := by decide +kernel
    simp only [getters, same, if_true, Except.ok.injEq, exists_eq', and_self]

theorem vote_ownSatisfied :
    vote.requiredAuthorities.OwnSatisfied .standard getters [⟨1⟩, ⟨2⟩, ⟨3⟩, ⟨4⟩] where
  posting id member := by
    rw [vote_required] at member
    cases member
  active id member := by
    rw [vote_required] at member
    obtain rfl := List.mem_singleton.mp member
    decide +kernel

end KeyHolder

end Example

end Zattera
