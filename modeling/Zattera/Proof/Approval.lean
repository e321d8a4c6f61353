/-
This file says what it means that signatures satisfy an authority, and that the
authority check accepts nothing else. Satisfaction is the least relation closed
under adding up weights: of keys that have signed, and of accounts whose own
authority is satisfied. The check is a search with a cache of approved accounts,
with limits and early ends; that the cache only ever holds approved accounts is
the invariant all of it rests on, so the order of the search does not matter.
-/

import Zattera.Protocol.Transaction

namespace Zattera

open Program

variable {verdict : Bool} {auth : Authority} {threshold totalWeight : Nat} {u : Unit}
  {name : AccountName}

/-! ### What it means to satisfy an authority -/

/-- The weight of those keys of a list that have signed. -/
def signedWeight (signed : List PublicKey) (keys : List (PublicKey × Nat)) : Nat :=
  ((keys.filter fun item => decide (item.1 ∈ signed)).map Prod.snd).sum

/-- The weight of accounts. -/
def membersWeight (members : List (AccountName × Nat)) : Nat := (members.map Prod.snd).sum

section Meaning

variable (signed : List PublicKey) (getAuthority : AccountName → Except ChainError Authority)

/-- The accounts that approve what the keys have signed. The wildcard account approves everything;
another account does when its keys that have signed and some members of its authority that approve
reach the threshold together. -/
inductive Approved : AccountName → Prop
  | wildcard : Approved AccountName.temp
  | weighed {name : AccountName} {auth : Authority} (members : List (AccountName × Nat))
      (found : getAuthority name = .ok auth) (listed : members.Sublist auth.accountAuths)
      (each : ∀ member ∈ members, Approved member.1.toStdString)
      (reached : auth.weightThreshold ≤ signedWeight signed auth.keyAuths + membersWeight members) :
      Approved name

/-- An authority is satisfied when keys that have signed and members that approve reach the
threshold together. -/
def Satisfied (auth : Authority) : Prop :=
  ∃ members : List (AccountName × Nat), members.Sublist auth.accountAuths ∧
    (∀ member ∈ members, Approved signed getAuthority member.1.toStdString) ∧
    auth.weightThreshold ≤ signedWeight signed auth.keyAuths + membersWeight members

variable {signed getAuthority} in
theorem Approved.of_satisfied (found : getAuthority name = .ok auth)
    (satisfied : Satisfied signed getAuthority auth) : Approved signed getAuthority name := by
  obtain ⟨members, listed, each, reached⟩ := satisfied
  exact .weighed members found listed each reached

/-- The authorities met on the way from some authorities to their members. -/
inductive ReachedFrom (start : Authority → Prop) : Authority → Prop
  | start {auth : Authority} (asked : start auth) : ReachedFrom start auth
  | member {auth next : Authority} {item : AccountName × Nat} (earlier : ReachedFrom start auth)
      (listed : item ∈ auth.accountAuths) (found : getAuthority item.1.toStdString = .ok next) :
      ReachedFrom start next

/-- The key is one of the keys of an authority met on the way. -/
def OccursFrom (start : Authority → Prop) (key : PublicKey) : Prop :=
  ∃ auth, ReachedFrom getAuthority start auth ∧ key ∈ auth.keyAuths.map Prod.fst

end Meaning

/-! ### The state of the search -/

/-- The keys that have signed are those provided or available, the cache holds approved accounts
only, and the keys marked as used occur on the way. -/
structure SignState.Sound (signed : List PublicKey) (env : SignEnv) (start : Authority → Prop)
    (state : SignState) : Prop where
  keys : ∀ key, key ∈ signed ↔
    key ∈ state.providedSignatures.map Prod.fst ∨ key ∈ env.availableKeys
  approved : ∀ name ∈ state.approvedBy, Approved signed env.getActive name
  used : ∀ item ∈ state.providedSignatures, item.2 = true →
    OccursFrom env.getActive start item.1

theorem mem_addSignature {key : PublicKey} {item : PublicKey × Bool}
    {provided : List (PublicKey × Bool)} :
    item ∈ addSignature key provided ↔ item = (key, true) ∨ item ∈ provided := by
  induction provided with
  | nil => exact List.mem_singleton.trans (or_iff_left List.not_mem_nil).symm
  | cons head rest inductionHypothesis =>
    rw [addSignature]
    split
    · exact List.mem_cons
    · rw [List.mem_cons, inductionHypothesis, List.mem_cons, or_left_comm]

/-- Marking a key as used changes no key. -/
theorem map_fst_markUsed (key : PublicKey) (provided : List (PublicKey × Bool)) :
    (provided.map fun item => if item.1 = key then (key, true) else item).map Prod.fst =
      provided.map Prod.fst := by
  rw [List.map_map]
  refine List.map_congr_left fun item _ => ?_
  rw [Function.comp_apply]
  split
  · next same => exact same.symm
  · rfl

/-- After a look for a key, the key is provided if it was or is available, and what is provided
under it is marked; everything else is as before. -/
theorem signedBy_spec (env : SignEnv) (key : PublicKey) (s : SignState) :
    ∃ provided, signedBy env key s =
        .ok (decide (key ∈ s.providedSignatures.map Prod.fst ∨ key ∈ env.availableKeys))
          { s with providedSignatures := provided } ∧
      (∀ other, other ∈ provided.map Prod.fst ↔
        other ∈ s.providedSignatures.map Prod.fst ∨ other = key ∧ key ∈ env.availableKeys) ∧
      ∀ item ∈ provided, item = (key, true) ∨ item.1 ≠ key ∧ item ∈ s.providedSignatures := by
  rw [signedBy, get_bind]
  by_cases provided : key ∈ s.providedSignatures.map Prod.fst
  · rw [if_pos provided, decide_eq_true (.inl provided)]
    refine ⟨_, rfl, fun other => ?_, fun item member => ?_⟩
    · rw [map_fst_markUsed, or_iff_left_of_imp]
      exact fun same => same.1 ▸ provided
    · obtain ⟨old, stored, rfl⟩ := List.mem_map.mp member
      by_cases same : old.1 = key
      · exact .inl (if_pos same)
      · rw [if_neg same]
        exact .inr ⟨same, stored⟩
  · have others {item} (stored : item ∈ s.providedSignatures) : item.1 ≠ key :=
      fun same => provided (same ▸ List.mem_map_of_mem stored)
    rw [if_neg provided]
    by_cases available : key ∈ env.availableKeys
    · rw [if_pos available, decide_eq_true (.inr available)]
      refine ⟨_, rfl, fun other => ?_, fun item member => ?_⟩
      · simp only [List.mem_map, mem_addSignature, or_and_right, exists_or, exists_eq_left]
        rw [or_comm, eq_comm, and_iff_left available]
      · exact (mem_addSignature.mp member).imp id fun stored => ⟨others stored, stored⟩
    · rw [if_neg available, decide_eq_false (not_or.mpr ⟨provided, available⟩)]
      refine ⟨_, rfl, fun other => ?_, fun item stored => .inr ⟨others stored, stored⟩⟩
      rw [or_iff_left fun same => available same.2]

section Search

variable {signed : List PublicKey} {env : SignEnv} {start : Authority → Prop} {s t : SignState}

theorem SignState.Sound.counting (sound : s.Sound signed env start) (count : Nat) :
    ({ s with accountAuthCount := count } : SignState).Sound signed env start :=
  ⟨sound.keys, sound.approved, sound.used⟩

theorem SignState.Sound.approving (sound : s.Sound signed env start)
    (approved : Approved signed env.getActive name) :
    ({ s with approvedBy := name :: s.approvedBy } : SignState).Sound signed env start := by
  refine ⟨sound.keys, fun other member => ?_, sound.used⟩
  rcases List.mem_cons.mp member with rfl | earlier
  · exact approved
  · exact sound.approved other earlier

theorem signedBy_sound {key : PublicKey} (sound : s.Sound signed env start)
    (occurs : OccursFrom env.getActive start key) (run : signedBy env key s = .ok verdict t) :
    t.Sound signed env start ∧ verdict = decide (key ∈ signed) := by
  obtain ⟨provided, looked, keys, items⟩ := signedBy_spec env key s
  obtain ⟨rfl, rfl⟩ := EStateM.Result.ok.inj (looked.symm.trans run)
  refine ⟨⟨fun other => ?_, sound.approved, fun item member marked => ?_⟩,
    decide_eq_decide.mpr (sound.keys key).symm⟩
  · rw [sound.keys, keys, or_assoc]
    refine or_congr_right (or_iff_right_of_imp ?_).symm
    rintro ⟨rfl, available⟩
    exact available
  · rcases items item member with rfl | ⟨_, stored⟩
    · exact occurs
    · exact sound.used item stored marked

/-- What an outcome of the loop over keys says, for the keys still to come. -/
def KeysOutcome (signed : List PublicKey) (threshold : Nat) (keys : List (PublicKey × Nat))
    (totalWeight : Nat) : Bool ⊕ Nat × Nat → Prop
  | .inl verdict => verdict = true → threshold ≤ totalWeight + signedWeight signed keys
  | .inr (weight, _) => weight = totalWeight + signedWeight signed keys

theorem signedWeight_cons (item : PublicKey × Nat) (rest : List (PublicKey × Nat)) :
    signedWeight signed (item :: rest) =
      (if item.1 ∈ signed then item.2 else 0) + signedWeight signed rest := by
  unfold signedWeight
  rw [List.filter_cons]
  by_cases member : item.1 ∈ signed
  · rw [if_pos (decide_eq_true member), if_pos member, List.map_cons, List.sum_cons]
  · rw [if_neg (by simpa using member), if_neg member, Nat.zero_add]

theorem checkKeyAuths_sound {membership : Nat} {keys : List (PublicKey × Nat)}
    {outcome : Bool ⊕ Nat × Nat} (sound : s.Sound signed env start)
    (occur : ∀ item ∈ keys, OccursFrom env.getActive start item.1)
    (run : checkKeyAuths env threshold keys totalWeight membership s = .ok outcome t) :
    t.Sound signed env start ∧ KeysOutcome signed threshold keys totalWeight outcome := by
  induction keys generalizing s totalWeight membership with
  | nil =>
    obtain ⟨rfl, rfl⟩ := pure_eq_ok.mp run
    exact ⟨sound, rfl⟩
  | cons item rest inductionHypothesis =>
    obtain ⟨key, weight⟩ := item
    rw [checkKeyAuths, bind_eq_ok] at run
    obtain ⟨isSigned, middle, looked, run⟩ := run
    obtain ⟨middleSound, rfl⟩ := signedBy_sound sound (occur _ List.mem_cons_self) looked
    simp only [decide_eq_true_eq] at run
    generalize countedBy : (if key ∈ signed then totalWeight + weight else totalWeight) = counted
      at run
    have total : counted + signedWeight signed rest =
        totalWeight + signedWeight signed ((key, weight) :: rest) := by
      rw [signedWeight_cons, ← countedBy]
      split <;> omega
    split at run
    · next enough =>
      obtain ⟨rfl, rfl⟩ := pure_eq_ok.mp run
      refine ⟨middleSound, fun _ => ?_⟩
      rw [← total]
      exact Nat.le_trans enough.2 (Nat.le_add_right _ _)
    · split at run
      · obtain ⟨rfl, rfl⟩ := pure_eq_ok.mp run
        exact ⟨middleSound, nofun⟩
      · obtain ⟨lastSound, result⟩ := inductionHypothesis middleSound
          (fun other member => occur other (List.mem_cons_of_mem _ member)) run
        refine ⟨lastSound, ?_⟩
        unfold KeysOutcome at result ⊢
        rw [← total]
        exact result

/-- Some of the accounts approve, and with the weight so far they reach the threshold. -/
def MembersReach (signed : List PublicKey)
    (getAuthority : AccountName → Except ChainError Authority) (threshold totalWeight : Nat)
    (accounts : List (AccountName × Nat)) : Prop :=
  ∃ members : List (AccountName × Nat), members.Sublist accounts ∧
    (∀ member ∈ members, Approved signed getAuthority member.1.toStdString) ∧
    threshold ≤ totalWeight + membersWeight members

theorem MembersReach.skip {item : AccountName × Nat} {rest : List (AccountName × Nat)}
    (reach : MembersReach signed env.getActive threshold totalWeight rest) :
    MembersReach signed env.getActive threshold totalWeight (item :: rest) := by
  obtain ⟨members, listed, each, reached⟩ := reach
  exact ⟨members, listed.cons item, each, reached⟩

theorem MembersReach.count {item : AccountName × Nat} {rest : List (AccountName × Nat)}
    (approved : Approved signed env.getActive item.1.toStdString)
    (reach : MembersReach signed env.getActive threshold (totalWeight + item.2) rest) :
    MembersReach signed env.getActive threshold totalWeight (item :: rest) := by
  obtain ⟨members, listed, each, reached⟩ := reach
  refine ⟨item :: members, listed.cons_cons item, fun member isMember => ?_, ?_⟩
  · rcases List.mem_cons.mp isMember with rfl | later
    · exact approved
    · exact each member later
  · unfold membersWeight at reached ⊢
    rw [List.map_cons, List.sum_cons]
    omega

theorem MembersReach.nothing {accounts : List (AccountName × Nat)}
    (enough : threshold ≤ totalWeight) :
    MembersReach signed env.getActive threshold totalWeight accounts :=
  ⟨[], List.nil_sublist _, nofun, enough⟩

/-- The check of one account keeps the state sound and approves only accounts that do approve. -/
def ChecksSoundly (signed : List PublicKey) (env : SignEnv) (start : Authority → Prop)
    (name : AccountName) (check : SignM Bool) : Prop :=
  ∀ s t verdict, s.Sound signed env start → check s = .ok verdict t →
    t.Sound signed env start ∧ (verdict = true → Approved signed env.getActive name)

theorem checkAccountAuths_sound {membership : Nat} {recurse : Option (AccountName → SignM Bool)}
    {accounts : List (AccountName × Nat)} (sound : s.Sound signed env start)
    (deeper : ∀ check, recurse = some check → ∀ item ∈ accounts,
      ChecksSoundly signed env start item.1.toStdString (check item.1.toStdString))
    (run : checkAccountAuths env threshold recurse accounts totalWeight membership s =
      .ok verdict t) :
    t.Sound signed env start ∧
      (verdict = true → MembersReach signed env.getActive threshold totalWeight accounts) := by
  induction accounts generalizing s totalWeight membership with
  | nil =>
    obtain ⟨rfl, rfl⟩ := pure_eq_ok.mp run
    exact ⟨sound, fun enough => .nothing (of_decide_eq_true enough)⟩
  | cons item rest inductionHypothesis =>
    obtain ⟨name, weight⟩ := item
    have restDeeper : ∀ check, recurse = some check → ∀ item ∈ rest,
        ChecksSoundly signed env start item.1.toStdString (check item.1.toStdString) :=
      fun check isCheck other member => deeper check isCheck other (List.mem_cons_of_mem _ member)
    -- The two ways on: with the account's weight counted, or without it.
    have counted {u : SignState} (middle : u.Sound signed env start)
        (approved : Approved signed env.getActive name.toStdString)
        (run : (if threshold ≤ totalWeight + weight then pure true
          else if 0 < env.maxMembership ∧ env.maxMembership ≤ membership + 1 then pure false
          else checkAccountAuths env threshold recurse rest (totalWeight + weight) (membership + 1))
          u = .ok verdict t) :
        t.Sound signed env start ∧ (verdict = true →
          MembersReach signed env.getActive threshold totalWeight ((name, weight) :: rest)) := by
      split at run
      · next enough =>
        obtain ⟨rfl, rfl⟩ := pure_eq_ok.mp run
        exact ⟨middle, fun _ => .count approved (.nothing enough)⟩
      · split at run
        · obtain ⟨rfl, rfl⟩ := pure_eq_ok.mp run
          exact ⟨middle, nofun⟩
        · obtain ⟨last, reach⟩ := inductionHypothesis middle restDeeper run
          exact ⟨last, fun accepted => .count approved (reach accepted)⟩
    rw [checkAccountAuths, bind_eq_ok] at run
    obtain ⟨_, _, read, run⟩ := run
    obtain ⟨rfl, rfl⟩ := get_eq_ok.mp read
    dsimp only at run
    split at run
    · next cached => exact counted sound (sound.approved _ cached) run
    · cases recurse with
      | none =>
        obtain ⟨last, reach⟩ := inductionHypothesis sound restDeeper run
        exact ⟨last, fun accepted => (reach accepted).skip⟩
      | some check =>
        dsimp only at run
        split at run
        · obtain ⟨rfl, rfl⟩ := pure_eq_ok.mp run
          exact ⟨sound, nofun⟩
        · simp only [bind_eq_ok, set_eq_ok] at run
          obtain ⟨_, _, rfl, approved, checked, checking, run⟩ := run
          obtain ⟨middle, approves⟩ := deeper check rfl _ List.mem_cons_self _ checked approved
            (sound.counting _) checking
          split at run
          · next accepted =>
            simp only [bind_eq_ok, modify_eq_ok] at run
            obtain ⟨_, _, rfl, run⟩ := run
            exact counted (middle.approving (approves accepted)) (approves accepted) run
          · split at run
            · obtain ⟨rfl, rfl⟩ := pure_eq_ok.mp run
              exact ⟨middle, nofun⟩
            · obtain ⟨last, reach⟩ := inductionHypothesis middle restDeeper run
              exact ⟨last, fun accepted => (reach accepted).skip⟩

/-- The loop over keys decides, or the loop over accounts after it. -/
theorem loops_sound {recurse : Option (AccountName → SignM Bool)}
    (reached : ReachedFrom env.getActive start auth) (sound : s.Sound signed env start)
    (deeper : ∀ check, recurse = some check → ∀ item ∈ auth.accountAuths,
      ChecksSoundly signed env start item.1.toStdString (check item.1.toStdString))
    {outcome : Bool ⊕ Nat × Nat} {u : SignState}
    (keys : checkKeyAuths env auth.weightThreshold auth.keyAuths 0 0 s = .ok outcome u)
    (early : ∀ decided, outcome = .inl decided → decided = verdict ∧ u = t)
    (late : ∀ weight membership, outcome = .inr (weight, membership) →
      checkAccountAuths env auth.weightThreshold recurse auth.accountAuths weight membership u =
        .ok verdict t) :
    t.Sound signed env start ∧
      (verdict = true → Satisfied signed env.getActive auth) := by
  obtain ⟨middle, result⟩ := checkKeyAuths_sound sound
    (fun item member => ⟨auth, reached, List.mem_map_of_mem member⟩) keys
  cases outcome with
  | inl decided =>
    obtain ⟨rfl, rfl⟩ := early decided rfl
    refine ⟨middle, fun accepted => ⟨[], List.nil_sublist _, nofun, ?_⟩⟩
    have enough := result accepted
    rw [Nat.zero_add] at enough
    exact enough
  | inr weighed =>
    obtain ⟨last, reach⟩ := checkAccountAuths_sound middle deeper (late weighed.1 weighed.2 rfl)
    refine ⟨last, fun accepted => ?_⟩
    obtain ⟨members, listed, each, enough⟩ := reach accepted
    refine ⟨members, listed, each, ?_⟩
    rw [show weighed.1 = 0 + signedWeight signed auth.keyAuths from result, Nat.zero_add] at enough
    exact enough

/-- A walk over an authority on the way, to whichever depth. -/
theorem checkAuthorityImpl_sound {remaining : Nat} (reached : ReachedFrom env.getActive start auth)
    (sound : s.Sound signed env start)
    (run : checkAuthorityImpl env remaining auth s = .ok verdict t) :
    t.Sound signed env start ∧
      (verdict = true → Satisfied signed env.getActive auth) := by
  induction remaining generalizing auth s t verdict with
  | zero =>
    rw [checkAuthorityImpl, bind_eq_ok] at run
    obtain ⟨outcome, middle, keys, run⟩ := run
    have bottom (check : AccountName → SignM Bool) (isCheck : none = some check) :
        ∀ item ∈ auth.accountAuths,
          ChecksSoundly signed env start item.1.toStdString (check item.1.toStdString) := by
      cases isCheck
    refine loops_sound reached sound bottom keys (fun decided isEarly => ?_)
      fun weight membership isLate => ?_
    · subst isEarly
      exact pure_eq_ok.mp run
    · subst isLate
      exact run
  | succ deeper inductionHypothesis =>
    rw [checkAuthorityImpl, bind_eq_ok] at run
    obtain ⟨outcome, middle, keys, run⟩ := run
    have recursion (check : AccountName → SignM Bool)
        (isCheck : some (fun account => do
          let active ← env.getActive account
          checkAuthorityImpl env deeper active) = some check) :
        ∀ item ∈ auth.accountAuths,
          ChecksSoundly signed env start item.1.toStdString (check item.1.toStdString) := by
      cases isCheck
      intro item member before after approved beforeSound checked
      simp only [bind_eq_ok, lift_eq_ok, and_assoc, exists_and_left, exists_eq_left'] at checked
      obtain ⟨active, found, checked⟩ := checked
      obtain ⟨afterSound, satisfied⟩ :=
        inductionHypothesis (reached.member member found) beforeSound checked
      exact ⟨afterSound, fun accepted => .of_satisfied found (satisfied accepted)⟩
    refine loops_sound reached sound recursion keys (fun decided isEarly => ?_)
      fun weight membership isLate => ?_
    · subst isEarly
      exact pure_eq_ok.mp run
    · subst isLate
      exact run

theorem checkAuthority_sound (run : checkAuthority env auth s = .ok verdict t)
    (sound : s.Sound signed env start) (asked : start auth) :
    t.Sound signed env start ∧
      (verdict = true → Satisfied signed env.getActive auth) := by
  simp only [checkAuthority, bind_eq_ok, modify_eq_ok] at run
  obtain ⟨_, _, rfl, run⟩ := run
  exact checkAuthorityImpl_sound (.start asked) (sound.counting 0) run

theorem checkAuthorityOf_sound {id : AccountName} (run : checkAuthorityOf env id s = .ok verdict t)
    (sound : s.Sound signed env start)
    (asked : ∀ auth, env.getActive id.toStdString = .ok auth → start auth) :
    t.Sound signed env start ∧
      (verdict = true → Approved signed env.getActive id.toStdString) := by
  simp only [checkAuthorityOf, bind_eq_ok, get_eq_ok, and_assoc, exists_and_left,
    exists_eq_left'] at run
  split at run
  · next cached =>
    obtain ⟨rfl, rfl⟩ := pure_eq_ok.mp run
    exact ⟨sound, fun _ => sound.approved _ cached⟩
  · simp only [bind_eq_ok, set_eq_ok, lift_eq_ok, and_assoc, exists_and_left,
      exists_eq_left'] at run
    obtain ⟨_, active, found, run⟩ := run
    obtain ⟨last, satisfied⟩ :=
      checkAuthorityImpl_sound (.start (asked active found)) (sound.counting 1) run
    exact ⟨last, fun accepted => .of_satisfied found (satisfied accepted)⟩

end Search

/-! ### Verifying a transaction -/

/-- The authorities a check may start from: those required, and those that may stand in for them. -/
inductive RequiredAuthorities.Asks (required : RequiredAuthorities) (getters : AuthorityGetters) :
    Authority → Prop
  | posting {id : AccountName} {auth : Authority} (listed : id ∈ required.posting)
      (found : getters.getPosting id.toStdString = .ok auth) : Asks required getters auth
  | activeForPosting {id : AccountName} {auth : Authority} (listed : id ∈ required.posting)
      (found : getters.getActive id.toStdString = .ok auth) : Asks required getters auth
  | ownerForPosting {id : AccountName} {auth : Authority} (listed : id ∈ required.posting)
      (found : getters.getOwner id.toStdString = .ok auth) : Asks required getters auth
  | active {id : AccountName} {auth : Authority} (listed : id ∈ required.active)
      (found : getters.getActive id.toStdString = .ok auth) : Asks required getters auth
  | ownerForActive {id : AccountName} {auth : Authority} (listed : id ∈ required.active)
      (found : getters.getOwner id.toStdString = .ok auth) : Asks required getters auth
  | owner {id : AccountName} {auth : Authority} (listed : id ∈ required.owner)
      (found : getters.getOwner id.toStdString = .ok auth) : Asks required getters auth
  | other {auth : Authority} (listed : auth ∈ required.other) : Asks required getters auth

/-- Every required authority is satisfied, or one that may stand in for it. Where posting authority
is required members count by their posting authority, elsewhere by their active one. -/
structure RequiredAuthorities.Met (required : RequiredAuthorities) (signed : List PublicKey)
    (getters : AuthorityGetters) : Prop where
  posting : ∀ id ∈ required.posting,
    Approved signed getters.getPosting id.toStdString ∨
      (∃ auth, getters.getActive id.toStdString = .ok auth ∧
        Satisfied signed getters.getPosting auth) ∨
      ∃ auth, getters.getOwner id.toStdString = .ok auth ∧ Satisfied signed getters.getPosting auth
  active : ∀ id ∈ required.active,
    Approved signed getters.getActive id.toStdString ∨
      ∃ auth, getters.getOwner id.toStdString = .ok auth ∧ Satisfied signed getters.getActive auth
  owner : ∀ id ∈ required.owner,
    ∃ auth, getters.getOwner id.toStdString = .ok auth ∧ Satisfied signed getters.getActive auth
  other : ∀ auth ∈ required.other, Satisfied signed getters.getActive auth

/-- The getter by which members are looked up. -/
def RequiredAuthorities.memberGetter (required : RequiredAuthorities) (getters : AuthorityGetters) :
    AccountName → Except ChainError Authority :=
  if required.posting ≠ [] then getters.getPosting else getters.getActive

section Verify

variable {limits : SignLimits} {required : RequiredAuthorities} {signed : List PublicKey}
  {getters : AuthorityGetters} {s t : SignState}

/-- The search of `verify_authority` for the authorities a transaction requires. -/
abbrev SignState.SoundFor (required : RequiredAuthorities) (signed : List PublicKey)
    (getters : AuthorityGetters) (env : SignEnv) (state : SignState) : Prop :=
  state.Sound signed env (required.Asks getters)

theorem requirePosting_sound {id : AccountName} (listed : id ∈ required.posting)
    (sound : s.SoundFor required signed getters (limits.signEnv getters.getPosting))
    (run : requirePosting limits getters id s = .ok u t) :
    t.SoundFor required signed getters (limits.signEnv getters.getPosting) ∧
      (Approved signed getters.getPosting id.toStdString ∨
        (∃ auth, getters.getActive id.toStdString = .ok auth ∧
          Satisfied signed getters.getPosting auth) ∨
        ∃ auth, getters.getOwner id.toStdString = .ok auth ∧
          Satisfied signed getters.getPosting auth) := by
  simp only [requirePosting, bind_eq_ok] at run
  obtain ⟨own, first, checkedOwn, run⟩ := run
  obtain ⟨soundFirst, approved⟩ := checkAuthorityOf_sound checkedOwn sound
    fun auth found => .posting listed found
  split at run
  · next accepted =>
    obtain ⟨_, rfl⟩ := pure_eq_ok.mp run
    exact ⟨soundFirst, .inl (approved accepted)⟩
  · simp only [bind_eq_ok, lift_eq_ok, and_assoc, exists_and_left, exists_eq_left'] at run
    obtain ⟨active, foundActive, standIn, second, checkedActive, run⟩ := run
    obtain ⟨soundSecond, satisfied⟩ := checkAuthority_sound checkedActive soundFirst (.activeForPosting listed foundActive)
    split at run
    · next accepted =>
      obtain ⟨_, rfl⟩ := pure_eq_ok.mp run
      exact ⟨soundSecond, .inr (.inl ⟨active, foundActive, satisfied accepted⟩)⟩
    · simp only [bind_eq_ok, lift_eq_ok, and_assoc, exists_and_left, exists_eq_left'] at run
      obtain ⟨owner, foundOwner, standIn, third, checkedOwner, run⟩ := run
      obtain ⟨soundThird, satisfied⟩ := checkAuthority_sound checkedOwner soundSecond (.ownerForPosting listed foundOwner)
      split at run
      · next accepted =>
        obtain ⟨_, rfl⟩ := pure_eq_ok.mp run
        exact ⟨soundThird, .inr (.inr ⟨owner, foundOwner, satisfied accepted⟩)⟩
      · simp at run

theorem requireActive_sound {id : AccountName} (listed : id ∈ required.active)
    (sound : s.SoundFor required signed getters (limits.signEnv getters.getActive))
    (run : requireActive limits getters id s = .ok u t) :
    t.SoundFor required signed getters (limits.signEnv getters.getActive) ∧
      (Approved signed getters.getActive id.toStdString ∨
        ∃ auth, getters.getOwner id.toStdString = .ok auth ∧
          Satisfied signed getters.getActive auth) := by
  simp only [requireActive, bind_eq_ok] at run
  obtain ⟨own, first, checkedOwn, run⟩ := run
  obtain ⟨soundFirst, approved⟩ := checkAuthorityOf_sound checkedOwn sound
    fun auth found => .active listed found
  split at run
  · next accepted =>
    obtain ⟨_, rfl⟩ := pure_eq_ok.mp run
    exact ⟨soundFirst, .inl (approved accepted)⟩
  · simp only [bind_eq_ok, lift_eq_ok, and_assoc, exists_and_left, exists_eq_left'] at run
    obtain ⟨owner, foundOwner, standIn, second, checkedOwner, run⟩ := run
    obtain ⟨soundSecond, satisfied⟩ := checkAuthority_sound checkedOwner soundFirst (.ownerForActive listed foundOwner)
    split at run
    · next accepted =>
      obtain ⟨_, rfl⟩ := pure_eq_ok.mp run
      exact ⟨soundSecond, .inr ⟨owner, foundOwner, satisfied accepted⟩⟩
    · simp at run

theorem requireOwner_sound {id : AccountName} (listed : id ∈ required.owner)
    (sound : s.SoundFor required signed getters (limits.signEnv getters.getActive))
    (run : requireOwner limits getters id s = .ok u t) :
    t.SoundFor required signed getters (limits.signEnv getters.getActive) ∧
      ∃ auth, getters.getOwner id.toStdString = .ok auth ∧
        Satisfied signed getters.getActive auth := by
  simp only [requireOwner, bind_eq_ok, lift_eq_ok, and_assoc, exists_and_left,
    exists_eq_left'] at run
  obtain ⟨owner, found, accepted, middle, checked, run⟩ := run
  obtain ⟨soundMiddle, satisfied⟩ := checkAuthority_sound checked sound (.owner listed found)
  split at run
  · next isAccepted =>
    obtain ⟨_, rfl⟩ := pure_eq_ok.mp run
    exact ⟨soundMiddle, owner, found, satisfied isAccepted⟩
  · simp at run

theorem requireOther_sound (listed : auth ∈ required.other)
    (sound : s.SoundFor required signed getters (limits.signEnv getters.getActive))
    (run : requireOther limits getters auth s = .ok u t) :
    t.SoundFor required signed getters (limits.signEnv getters.getActive) ∧
      Satisfied signed getters.getActive auth := by
  simp only [requireOther, bind_eq_ok] at run
  obtain ⟨accepted, middle, checked, run⟩ := run
  obtain ⟨soundMiddle, satisfied⟩ := checkAuthority_sound checked sound (.other listed)
  split at run
  · next isAccepted =>
    obtain ⟨_, rfl⟩ := pure_eq_ok.mp run
    exact ⟨soundMiddle, satisfied isAccepted⟩
  · simp at run

theorem SignState.map_fst_initial (sigs : List PublicKey) :
    (SignState.initial sigs).providedSignatures.map Prod.fst = sigs := by
  show (sigs.map fun key => (key, false)).map Prod.fst = sigs
  rw [List.map_map]
  exact List.map_id sigs

theorem SignState.initial_sound (sigs : List PublicKey)
    (getAuthority : AccountName → Except ChainError Authority) :
    (SignState.initial sigs).SoundFor required sigs getters (limits.signEnv getAuthority) := by
  refine ⟨fun key => ?_, fun name member => ?_, fun item member marked => ?_⟩
  · rw [SignState.map_fst_initial]
    exact (or_iff_left List.not_mem_nil).symm
  · obtain rfl := List.mem_singleton.mp member
    exact .wildcard
  · obtain ⟨key, _, rfl⟩ := List.mem_map.mp member
    cases marked

/-- No signature is left over: each key has been used, and so occurs. -/
theorem occurs_of_noUnused {getAuthority : AccountName → Except ChainError Authority}
    (sound : s.SoundFor required signed getters (limits.signEnv getAuthority))
    (run : requireNoUnusedSignatures s = .ok u t) :
    ∀ key ∈ signed, OccursFrom getAuthority (required.Asks getters) key := by
  simp only [requireNoUnusedSignatures, bind_eq_ok, get_eq_ok, and_assoc, exists_and_left,
    exists_eq_left'] at run
  split at run
  · simp at run
  · next allUsed =>
    intro key member
    have provided := ((sound.keys key).mp member).resolve_right List.not_mem_nil
    obtain ⟨item, stored, rfl⟩ := List.mem_map.mp provided
    refine sound.used item stored ?_
    simp only [SignState.hasUnusedSignatures, List.any_eq_true, Bool.not_eq_true',
      not_exists, not_and, Bool.not_eq_false] at allUsed
    exact allUsed item stored

/-- What `verify_authority` accepts is authorized: every requirement is met, and every signature
belongs to an authority that was asked for. -/
theorem met_of_verifyAuthority
    (accepted : verifyAuthorityWithin limits required signed getters = .ok ()) :
    required.Met signed getters ∧
      ∀ key ∈ signed, OccursFrom (required.memberGetter getters) (required.Asks getters) key := by
  unfold verifyAuthorityWithin at accepted
  dsimp only at accepted
  split at accepted
  case h_2 => cases accepted
  next _ _ last run =>
  by_cases isPosting : required.posting ≠ []
  · rw [if_pos isPosting] at run
    simp only [verifyPosting, bind_eq_ok, require_eq_ok, and_assoc, exists_and_left,
      exists_eq_left', exists_const] at run
    obtain ⟨noActive, noOwner, noOther, _, middle, loop, final⟩ := run
    obtain ⟨sound, posting⟩ := forM_each (fun id listed before after _ sound turned =>
      requirePosting_sound listed sound turned) (SignState.initial_sound signed _) loop
    rw [List.length_eq_zero_iff] at noActive noOwner noOther
    refine ⟨⟨posting, ?_, ?_, ?_⟩, ?_⟩
    · rw [noActive]
      exact List.forall_mem_nil _
    · rw [noOwner]
      exact List.forall_mem_nil _
    · rw [noOther]
      exact List.forall_mem_nil _
    · rw [RequiredAuthorities.memberGetter, if_pos isPosting]
      exact occurs_of_noUnused sound final
  · rw [if_neg isPosting] at run
    simp only [verifyOthers, bind_eq_ok] at run
    obtain ⟨_, first, loopOther, _, second, loopActive, _, third, loopOwner, final⟩ := run
    obtain ⟨soundFirst, other⟩ := forM_each (fun auth listed before after _ sound turned =>
      requireOther_sound listed sound turned) (SignState.initial_sound signed _) loopOther
    obtain ⟨soundSecond, active⟩ := forM_each (fun id listed before after _ sound turned =>
      requireActive_sound listed sound turned) soundFirst loopActive
    obtain ⟨soundThird, owner⟩ := forM_each (fun id listed before after _ sound turned =>
      requireOwner_sound listed sound turned) soundSecond loopOwner
    refine ⟨⟨?_, active, owner, other⟩, ?_⟩
    · rw [not_not.mp isPosting]
      exact List.forall_mem_nil _
    · rw [RequiredAuthorities.memberGetter, if_neg isPosting]
      exact occurs_of_noUnused soundThird final

end Verify

/-! ### What each operation requires -/

/-- One authority that is required. -/
inductive Demand where
  | active (name : AccountName)
  | owner (name : AccountName)
  | posting (name : AccountName)
  | other (auth : Authority)

namespace RequiredAuthorities

/-- Requirements as a set of demands, to which each operation adds its own. -/
def Demands (required : RequiredAuthorities) : Demand → Prop
  | .active name => name ∈ required.active
  | .owner name => name ∈ required.owner
  | .posting name => name ∈ required.posting
  | .other auth => auth ∈ required.other

theorem mem_insertName {other : AccountName} {names : List AccountName} :
    other ∈ insertName name names ↔ other = name ∨ other ∈ names := by
  induction names with
  | nil => simp [insertName]
  | cons head rest inductionHypothesis =>
    rw [insertName]
    split
    · next same =>
      rw [same]
      simp
    · split
      · simp
      · rw [List.mem_cons, inductionHypothesis, List.mem_cons]
        tauto

/-- The function adds the same demands to whatever is required already. -/
def Accumulates (add : RequiredAuthorities → RequiredAuthorities) : Prop :=
  ∃ own : Demand → Prop, ∀ required demand,
    (add required).Demands demand ↔ required.Demands demand ∨ own demand

theorem accumulates_id : Accumulates id := ⟨fun _ => False, by simp⟩

theorem accumulates_addActive (name : AccountName) : Accumulates (addActive · name) := by
  refine ⟨(· = .active name), fun required demand => ?_⟩
  cases demand <;> simp [Demands, addActive, mem_insertName, or_comm]

theorem accumulates_addOwner (name : AccountName) : Accumulates (addOwner · name) := by
  refine ⟨(· = .owner name), fun required demand => ?_⟩
  cases demand <;> simp [Demands, addOwner, mem_insertName, or_comm]

theorem accumulates_addPosting (name : AccountName) : Accumulates (addPosting · name) := by
  refine ⟨(· = .posting name), fun required demand => ?_⟩
  cases demand <;> simp [Demands, addPosting, mem_insertName, or_comm]

theorem accumulates_addOther (auth : Authority) : Accumulates (addOther · auth) := by
  refine ⟨(· = .other auth), fun required demand => ?_⟩
  cases demand <;> simp [Demands, addOther]

theorem Accumulates.comp {first second : RequiredAuthorities → RequiredAuthorities}
    (later : Accumulates second) (earlier : Accumulates first) :
    Accumulates fun required => second (first required) := by
  obtain ⟨ownFirst, adds⟩ := earlier
  obtain ⟨ownSecond, addsSecond⟩ := later
  refine ⟨fun demand => ownFirst demand ∨ ownSecond demand, fun required demand => ?_⟩
  rw [addsSecond, adds, or_assoc]

theorem accumulates_foldl {α : Type} {add : RequiredAuthorities → α → RequiredAuthorities}
    (each : ∀ item, Accumulates (add · item)) (items : List α) :
    Accumulates fun required => items.foldl add required := by
  induction items with
  | nil => exact accumulates_id
  | cons item rest inductionHypothesis => exact inductionHypothesis.comp (each item)

theorem accumulates_addRequiredAuthorities (op : Operation) :
    Accumulates (Operation.addRequiredAuthorities · op) := by
  cases op with
  | transfer op =>
    by_cases vests : op.amount.symbol = .vests
    · simp only [Operation.addRequiredAuthorities, if_pos vests]
      exact accumulates_addOwner _
    · simp only [Operation.addRequiredAuthorities, if_neg vests]
      exact accumulates_addActive _
  | accountUpdate op =>
    by_cases owned : op.owner.isSome
    · simp only [Operation.addRequiredAuthorities, if_pos owned]
      exact accumulates_addOwner _
    · simp only [Operation.addRequiredAuthorities, if_neg owned]
      exact accumulates_addActive _
  | setResetAccount op =>
    by_cases named : op.currentResetAccount.size ≠ 0
    · simp only [Operation.addRequiredAuthorities, if_pos named]
      exact accumulates_addOwner _
    · simp only [Operation.addRequiredAuthorities, if_neg named]
      exact accumulates_addPosting _
  | custom op => exact accumulates_foldl accumulates_addActive _
  | customJson op =>
    exact (accumulates_foldl accumulates_addPosting _).comp
      (accumulates_foldl accumulates_addActive _)
  | customBinary op =>
    exact (accumulates_foldl accumulates_addOther _).comp
      ((accumulates_foldl accumulates_addPosting _).comp
        ((accumulates_foldl accumulates_addActive _).comp
          (accumulates_foldl accumulates_addOwner _)))
  | recoverAccount op => exact (accumulates_addOther _).comp (accumulates_addOther _)
  | witnessSetProperties op =>
    cases keyed : op.key <;> simp only [Operation.addRequiredAuthorities, keyed] <;>
      exact accumulates_addOther _
  | vote op | comment op | deleteComment op | commentOptions op | claimRewardBalance op =>
    exact accumulates_addPosting _
  | changeRecoveryAccount op | declineVotingRights op => exact accumulates_addOwner _
  | reportOverProduction op | virtualOperation => exact accumulates_id
  | _ => exact accumulates_addActive _

theorem demands_foldl_of_mem {operations : List Operation} {op : Operation} {demand : Demand}
    {start : RequiredAuthorities} (member : op ∈ operations)
    (demanded : (op.addRequiredAuthorities default).Demands demand) :
    (operations.foldl Operation.addRequiredAuthorities start).Demands demand := by
  induction operations generalizing start with
  | nil => simp at member
  | cons head rest inductionHypothesis =>
    rcases List.mem_cons.mp member with rfl | later
    · obtain ⟨own, adds⟩ := accumulates_addRequiredAuthorities op
      obtain ⟨_, addsRest⟩ := accumulates_foldl accumulates_addRequiredAuthorities rest
      refine (addsRest _ demand).mpr (.inl ((adds start demand).mpr (.inr ?_)))
      rcases (adds default demand).mp demanded with nothing | isOwn
      · cases demand <;> cases nothing
      · exact isOwn
    · exact inductionHypothesis later

end RequiredAuthorities

/-- Whatever part of the requirements is met with them. -/
theorem RequiredAuthorities.Met.part {required part : RequiredAuthorities}
    {signed : List PublicKey} {getters : AuthorityGetters} (met : required.Met signed getters)
    (included : ∀ demand, part.Demands demand → required.Demands demand) :
    part.Met signed getters where
  posting id member := met.posting id (included (.posting id) member)
  active id member := met.active id (included (.active id) member)
  owner id member := met.owner id (included (.owner id) member)
  other auth member := met.other auth (included (.other auth) member)

/-- If `verify_authority` accepts the keys that signed some operations, then what each of the
operations requires is satisfied, and each key belongs to an authority on the way. -/
theorem verifyAuthority_sound {operations : List Operation} {signed : List PublicKey}
    {getters : AuthorityGetters}
    (accepted : verifyAuthority (operations.foldl Operation.addRequiredAuthorities default) signed
      getters = .ok ()) :
    (∀ op ∈ operations, (op.addRequiredAuthorities default).Met signed getters) ∧
      ∀ key ∈ signed,
        OccursFrom
          ((operations.foldl Operation.addRequiredAuthorities default).memberGetter getters)
          ((operations.foldl Operation.addRequiredAuthorities default).Asks getters) key := by
  obtain ⟨met, occur⟩ := met_of_verifyAuthority accepted
  exact ⟨fun op member => met.part fun demand =>
    RequiredAuthorities.demands_foldl_of_mem member, occur⟩

/-- Two accounts that stand in for each other, one of which has a key as well. -/
def cyclicAuthorities : AuthorityGetters :=
  let first := AccountName.ofChars ['a', 'l', 'i', 'c', 'e']
  let second := AccountName.ofChars ['b', 'o', 'b']
  let getter (name : AccountName) : Except ChainError Authority :=
    if name = first then .ok ⟨1, [(second, 1)], []⟩
    else if name = second then .ok ⟨2, [(first, 1)], [(⟨7⟩, 2)]⟩
    else .error .unknownKey
  ⟨getter, getter, getter⟩

/-- A vote in the name of the account that has no key of its own. -/
def cyclicVote : Operation :=
  .accountWitnessVote ⟨AccountName.ofChars ['a', 'l', 'i', 'c', 'e'],
    AccountName.ofChars ['b', 'o', 'b'], true⟩

theorem cyclicVote_met :
    verifyAuthority ([cyclicVote].foldl Operation.addRequiredAuthorities default) [⟨7⟩]
        cyclicAuthorities = .ok () ∧
      (cyclicVote.addRequiredAuthorities default).Met [⟨7⟩] cyclicAuthorities := by
  have accepted : verifyAuthority ([cyclicVote].foldl Operation.addRequiredAuthorities default)
      [⟨7⟩] cyclicAuthorities = .ok () := by decide +kernel
  exact ⟨accepted, (verifyAuthority_sound accepted).1 cyclicVote List.mem_cons_self⟩

end Zattera
