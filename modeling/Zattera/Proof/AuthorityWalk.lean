/-
This file compares the authority check for different sets of signing keys. More
keys end the search earlier, and an account that is then never looked at is not
in the cache when a later check, too deep to look at it itself, relies on it. So
the check is not monotone in general. It is where the limits are not reached:
the cache then changes nothing, the check is a walk over a tree whose verdict
depends on the keys alone, and a walk with more keys meets fewer keys and
approves no less.
-/

import Mathlib.Algebra.BigOperators.Group.List.Basic
import Zattera.Proof.Approval

namespace Zattera

open Program

variable {auth : Authority} {weight membership more depth : Nat}
  {accounts : List (AccountName × Nat)}

/-! ### The walk without a cache -/

/-- What a walk over an authority finds: its verdict, and the keys it has met. -/
structure Walk where
  verdict : Bool
  met : List PublicKey
  deriving DecidableEq, Repr

/-- The walk over keys, to a verdict or to the weight and the number of members so far. -/
def walkKeys (signed : List PublicKey) (maxMembership threshold : Nat) :
    List (PublicKey × Nat) → Nat → Nat → (Bool ⊕ Nat × Nat) × List PublicKey
  | [], totalWeight, membership => (.inr (totalWeight, membership), [])
  | (key, weight) :: rest, totalWeight, membership =>
    let counted := if key ∈ signed then totalWeight + weight else totalWeight
    if key ∈ signed ∧ threshold ≤ counted then (.inl true, [key])
    else if 0 < maxMembership ∧ maxMembership ≤ membership + 1 then (.inl false, [key])
    else
      let later := walkKeys signed maxMembership threshold rest counted (membership + 1)
      (later.1, key :: later.2)

/-- The walk over accounts. -/
def walkMembers (maxMembership threshold : Nat) (ask : AccountName → Except ChainError Walk) :
    List (AccountName × Nat) → Nat → Nat → Except ChainError Walk
  | [], totalWeight, _ => .ok ⟨decide (threshold ≤ totalWeight), []⟩
  | (name, weight) :: rest, totalWeight, membership => do
    let answer ← ask name.toStdString
    let counted := if answer.verdict then totalWeight + weight else totalWeight
    if answer.verdict ∧ threshold ≤ counted then .ok ⟨true, answer.met⟩
    else if 0 < maxMembership ∧ maxMembership ≤ membership + 1 then .ok ⟨false, answer.met⟩
    else do
      let later ← walkMembers maxMembership threshold ask rest counted (membership + 1)
      .ok ⟨later.verdict, answer.met ++ later.met⟩

/-- The walk over one authority whose members answer as told. -/
def walkWith (signed : List PublicKey) (maxMembership : Nat)
    (ask : AccountName → Except ChainError Walk) (auth : Authority) : Except ChainError Walk :=
  match walkKeys signed maxMembership auth.weightThreshold auth.keyAuths 0 0 with
  | (.inl verdict, met) => .ok ⟨verdict, met⟩
  | (.inr (totalWeight, membership), met) => do
    let later ← walkMembers maxMembership auth.weightThreshold ask auth.accountAuths totalWeight
      membership
    .ok ⟨later.verdict, met ++ later.met⟩

/-- The walk to a given depth. The wildcard account needs no looking at. -/
def walk (getActive : AccountName → Except ChainError Authority) (maxMembership : Nat)
    (signed : List PublicKey) : Nat → Authority → Except ChainError Walk
  | 0 => walkWith signed maxMembership fun name => .ok ⟨decide (name = AccountName.temp), []⟩
  | deeper + 1 => walkWith signed maxMembership fun name =>
    if name = AccountName.temp then .ok ⟨true, []⟩
    else getActive name >>= walk getActive maxMembership signed deeper

/-- The answer of an account whose authority is walked to a given depth. -/
def askAccount (getActive : AccountName → Except ChainError Authority) (maxMembership : Nat)
    (signed : List PublicKey) (depth : Nat) (name : AccountName) : Except ChainError Walk :=
  if name = AccountName.temp then .ok ⟨true, []⟩
  else getActive name >>= walk getActive maxMembership signed depth

/-! ### Walks with more keys -/

/-- Where the first walk ends the second ends as well, approves no less and meets no more keys. -/
def Outdone (few many : Except ChainError Walk) : Prop :=
  ∀ found, few = .ok found →
    ∃ better, many = .ok better ∧ (found.verdict = true → better.verdict = true) ∧
      better.met ⊆ found.met

theorem Outdone.bind {α : Type} {source : Except ChainError α}
    {first second : α → Except ChainError Walk} (each : ∀ a, Outdone (first a) (second a)) :
    Outdone (source >>= first) (source >>= second) := by
  intro found walked
  obtain ⟨a, made, walked⟩ := except_bind_eq_ok.mp walked
  obtain ⟨better, walked, verdict, met⟩ := each a found walked
  exact ⟨better, except_bind_eq_ok.mpr ⟨a, made, walked⟩, verdict, met⟩

theorem Outdone.rfl {result : Except ChainError Walk} : Outdone result result :=
  fun found walked => ⟨found, walked, id, List.Subset.refl _⟩

section MoreKeys

variable {few many : List PublicKey} {maxMembership threshold : Nat}

/-- The walk over keys with more keys: it approves, or it comes as far with no less weight. -/
inductive KeysOutdone : (Bool ⊕ Nat × Nat) × List PublicKey →
    (Bool ⊕ Nat × Nat) × List PublicKey → Prop
  | approved {outcome : Bool ⊕ Nat × Nat} {met fewer : List PublicKey} (sub : fewer ⊆ met) :
      KeysOutdone (outcome, met) (.inl true, fewer)
  | rejected {met : List PublicKey} : KeysOutdone (.inl false, met) (.inl false, met)
  | weighed {weight more membership : Nat} {met : List PublicKey} (heavier : weight ≤ more) :
      KeysOutdone (.inr (weight, membership), met) (.inr (more, membership), met)

theorem KeysOutdone.cons {first second : (Bool ⊕ Nat × Nat) × List PublicKey} (key : PublicKey)
    (outdone : KeysOutdone first second) :
    KeysOutdone (first.1, key :: first.2) (second.1, key :: second.2) := by
  cases outdone with
  | approved sub => exact .approved (List.cons_subset_cons key sub)
  | rejected => exact .rejected
  | weighed heavier => exact .weighed heavier

theorem counted_le {first second : Prop} [Decidable first] [Decidable second]
    (implies : first → second) (heavier : weight ≤ more) (extra : Nat) :
    (if first then weight + extra else weight) ≤ if second then more + extra else more := by
  split
  · next holds =>
    rw [if_pos (implies holds)]
    exact Nat.add_le_add_right heavier extra
  · split
    · exact Nat.le_trans heavier (Nat.le_add_right _ _)
    · exact heavier

theorem walkKeys_outdone (larger : few ⊆ many) {keys : List (PublicKey × Nat)}
    (heavier : weight ≤ more) :
    KeysOutdone (walkKeys few maxMembership threshold keys weight membership)
      (walkKeys many maxMembership threshold keys more membership) := by
  induction keys generalizing weight more membership with
  | nil => exact .weighed heavier
  | cons item rest inductionHypothesis =>
    obtain ⟨key, extra⟩ := item
    unfold walkKeys
    dsimp only
    generalize countedFew : (if key ∈ few then weight + extra else weight) = counted
    generalize countedMany : (if key ∈ many then more + extra else more) = countedMore
    have heavierStill : counted ≤ countedMore := by
      rw [← countedFew, ← countedMany]
      exact counted_le (larger ·) heavier extra
    by_cases enough : key ∈ many ∧ threshold ≤ countedMore
    · rw [if_pos enough]
      split
      · exact .approved (List.Subset.refl _)
      · split
        · exact .approved (List.Subset.refl _)
        · exact .approved (List.cons_subset_cons key (List.nil_subset _))
    · rw [if_neg enough, if_neg fun reached =>
        enough ⟨larger reached.1, Nat.le_trans reached.2 heavierStill⟩]
      split
      · exact .rejected
      · exact (inductionHypothesis heavierStill).cons key

theorem walkMembers_outdone {first second : AccountName → Except ChainError Walk}
    (asks : ∀ name, Outdone (first name) (second name)) (heavier : weight ≤ more) :
    Outdone (walkMembers maxMembership threshold first accounts weight membership)
      (walkMembers maxMembership threshold second accounts more membership) := by
  induction accounts generalizing weight more membership with
  | nil =>
    intro found walked
    obtain rfl := Except.ok.inj walked
    refine ⟨_, rfl, fun enough => ?_, List.Subset.refl _⟩
    exact decide_eq_true (Nat.le_trans (of_decide_eq_true enough) heavier)
  | cons item rest inductionHypothesis =>
    obtain ⟨name, extra⟩ := item
    intro found walked
    obtain ⟨answer, asked, walked⟩ := except_bind_eq_ok.mp walked
    obtain ⟨better, askedAgain, verdict, met⟩ := asks _ answer asked
    dsimp only at walked
    generalize countedFew : (if answer.verdict = true then weight + extra else weight) = counted
      at walked
    generalize countedMany : (if better.verdict = true then more + extra else more) = countedMore
    have heavierStill : counted ≤ countedMore := by
      rw [← countedFew, ← countedMany]
      exact counted_le verdict heavier extra
    have continues : walkMembers maxMembership threshold second ((name, extra) :: rest) more
        membership =
        if better.verdict = true ∧ threshold ≤ countedMore then .ok ⟨true, better.met⟩
        else if 0 < maxMembership ∧ maxMembership ≤ membership + 1 then .ok ⟨false, better.met⟩
        else walkMembers maxMembership threshold second rest countedMore (membership + 1) >>=
          fun later => .ok ⟨later.verdict, better.met ++ later.met⟩ := by
      rw [walkMembers, askedAgain, ← countedMany]
      rfl
    rw [continues]
    by_cases enough : better.verdict = true ∧ threshold ≤ countedMore
    · -- the second walk ends here, wherever the first one goes
      rw [if_pos enough]
      refine ⟨_, rfl, fun _ => rfl, ?_⟩
      split at walked
      · obtain rfl := Except.ok.inj walked
        exact met
      · split at walked
        · obtain rfl := Except.ok.inj walked
          exact met
        · obtain ⟨later, _, same⟩ := except_bind_eq_ok.mp walked
          obtain rfl := Except.ok.inj same
          exact List.Subset.trans met (List.subset_append_left _ _)
    · rw [if_neg enough]
      rw [if_neg fun reached =>
        enough ⟨verdict reached.1, Nat.le_trans reached.2 heavierStill⟩] at walked
      split at walked
      · next limited =>
        rw [if_pos limited]
        obtain rfl := Except.ok.inj walked
        exact ⟨_, rfl, id, met⟩
      · next unlimited =>
        rw [if_neg unlimited]
        obtain ⟨later, walkedLater, same⟩ := except_bind_eq_ok.mp walked
        obtain rfl := Except.ok.inj same
        obtain ⟨last, walkedLast, verdictLast, metLast⟩ :=
          inductionHypothesis heavierStill later walkedLater
        refine ⟨_, except_bind_eq_ok.mpr ⟨last, walkedLast, rfl⟩, verdictLast, ?_⟩
        exact List.append_subset.mpr ⟨List.subset_append_of_subset_left _ met,
          List.subset_append_of_subset_right _ metLast⟩

theorem walkWith_outdone (larger : few ⊆ many)
    {first second : AccountName → Except ChainError Walk}
    (asks : ∀ name, Outdone (first name) (second name)) (auth : Authority) :
    Outdone (walkWith few maxMembership first auth) (walkWith many maxMembership second auth) := by
  unfold walkWith
  have keys : KeysOutdone (walkKeys few maxMembership auth.weightThreshold auth.keyAuths 0 0)
      (walkKeys many maxMembership auth.weightThreshold auth.keyAuths 0 0) :=
    walkKeys_outdone larger (Nat.le_refl 0)
  generalize walkKeys few maxMembership auth.weightThreshold auth.keyAuths 0 0 = fewKeys at keys ⊢
  generalize walkKeys many maxMembership auth.weightThreshold auth.keyAuths 0 0 = manyKeys at keys ⊢
  cases keys with
  | @approved outcome met fewer sub =>
    intro found walked
    refine ⟨_, rfl, fun _ => rfl, ?_⟩
    cases outcome with
    | inl verdict =>
      obtain rfl := Except.ok.inj walked
      exact sub
    | inr weighed =>
      obtain ⟨later, _, same⟩ := except_bind_eq_ok.mp walked
      obtain rfl := Except.ok.inj same
      exact List.Subset.trans sub (List.subset_append_left _ _)
  | rejected => exact .rfl
  | weighed heavier =>
    intro found walked
    obtain ⟨later, walkedLater, same⟩ := except_bind_eq_ok.mp walked
    obtain rfl := Except.ok.inj same
    obtain ⟨better, walkedBetter, verdict, met⟩ :=
      walkMembers_outdone asks heavier later walkedLater
    refine ⟨_, except_bind_eq_ok.mpr ⟨better, walkedBetter, rfl⟩, verdict, ?_⟩
    exact List.append_subset.mpr ⟨List.subset_append_left _ _,
      List.subset_append_of_subset_right _ met⟩

/-- With more keys a walk approves no less, and meets no more keys. -/
theorem walk_outdone {getActive : AccountName → Except ChainError Authority} (larger : few ⊆ many)
    (depth : Nat) (auth : Authority) :
    Outdone (walk getActive maxMembership few depth auth)
      (walk getActive maxMembership many depth auth) := by
  induction depth generalizing auth with
  | zero => exact walkWith_outdone larger (fun _ => .rfl) auth
  | succ deeper inductionHypothesis =>
    refine walkWith_outdone larger (fun name => ?_) auth
    split
    · exact .rfl
    · exact .bind inductionHypothesis

theorem askAccount_outdone {getActive : AccountName → Except ChainError Authority}
    (larger : few ⊆ many) (depth : Nat) (name : AccountName) :
    Outdone (askAccount getActive maxMembership few depth name)
      (askAccount getActive maxMembership many depth name) := by
  unfold askAccount
  split
  · exact .rfl
  · exact .bind (walk_outdone larger depth)

end MoreKeys

/-! ### Trees that fit the limits -/

section Limits

variable (getActive : AccountName → Except ChainError Authority)

/-- No account is left to look at below the given depth. -/
def FitsDepth : Nat → Authority → Prop
  | 0, auth => ∀ item ∈ auth.accountAuths, item.1.toStdString = AccountName.temp
  | deeper + 1, auth => ∀ item ∈ auth.accountAuths, item.1.toStdString ≠ AccountName.temp →
    ∀ next, getActive item.1.toStdString = .ok next → FitsDepth deeper next

/-- What a count comes to for the authority of an account, if it has one. -/
def countActive (count : Authority → Nat) (name : AccountName) : Nat :=
  match getActive name with
  | .ok next => count next
  | .error _ => 0

/-- The number of accounts to look at down to the given depth, each as often as it is met. -/
def accountEntries : Nat → Authority → Nat
  | 0, _ => 0
  | deeper + 1, auth => (auth.accountAuths.map fun item =>
    if item.1.toStdString = AccountName.temp then 0
    else countActive getActive (accountEntries deeper) item.1.toStdString + 1).sum

variable {getActive} {signed : List PublicKey} {maxMembership threshold : Nat}

theorem walkMembers_congr {first second : AccountName → Except ChainError Walk}
    (same : ∀ item ∈ accounts, first item.1.toStdString = second item.1.toStdString) :
    walkMembers maxMembership threshold first accounts weight membership =
      walkMembers maxMembership threshold second accounts weight membership := by
  induction accounts generalizing weight membership with
  | nil => rfl
  | cons item rest inductionHypothesis =>
    have later (weight membership : Nat) :
        walkMembers maxMembership threshold first rest weight membership =
          walkMembers maxMembership threshold second rest weight membership :=
      inductionHypothesis fun other member => same other (List.mem_cons_of_mem item member)
    unfold walkMembers
    rw [same item List.mem_cons_self]
    simp only [later]

theorem walkWith_congr {first second : AccountName → Except ChainError Walk}
    (same : ∀ item ∈ auth.accountAuths, first item.1.toStdString = second item.1.toStdString) :
    walkWith signed maxMembership first auth = walkWith signed maxMembership second auth := by
  unfold walkWith
  split
  · rfl
  · rw [walkMembers_congr same]

/-- A tree that fits is walked the same way to any greater depth. -/
theorem walk_deeper (fits : FitsDepth getActive depth auth) (deeper : depth ≤ more) :
    walk getActive maxMembership signed more auth =
      walk getActive maxMembership signed depth auth := by
  induction depth generalizing more auth with
  | zero =>
    cases more with
    | zero => rfl
    | succ more =>
      refine walkWith_congr fun item member => ?_
      rw [if_pos (fits item member), decide_eq_true (fits item member)]
  | succ depth inductionHypothesis =>
    cases more with
    | zero => exact absurd deeper (Nat.not_succ_le_zero depth)
    | succ more =>
      refine walkWith_congr fun item member => ?_
      by_cases wildcard : item.1.toStdString = AccountName.temp
      · rw [if_pos wildcard, if_pos wildcard]
      · rw [if_neg wildcard, if_neg wildcard]
        cases found : getActive item.1.toStdString with
        | error e => rfl
        | ok next =>
          exact inductionHypothesis (fits item member wildcard next found)
            (Nat.le_of_succ_le_succ deeper)

/-- The depth to which a tree is walked does not matter if it fits. -/
theorem walk_depth_irrel {other : Nat} (fits : FitsDepth getActive depth auth)
    (fitsOther : FitsDepth getActive other auth) :
    walk getActive maxMembership signed depth auth =
      walk getActive maxMembership signed other auth := by
  rcases Nat.le_total depth other with less | more
  · exact (walk_deeper fits less).symm
  · exact walk_deeper fitsOther more

end Limits

/-! ### The check follows the walk -/

/-- The state of a check that has met some keys: those of them that sign are marked as used, and the
accounts in the cache are those that a walk approves, over keys met already. -/
structure SignState.Tracks (env : SignEnv) (signed met : List PublicKey) (state : SignState) :
    Prop where
  keys : ∀ key, key ∈ signed ↔
    key ∈ state.providedSignatures.map Prod.fst ∨ key ∈ env.availableKeys
  used : ∀ item ∈ state.providedSignatures, item.2 = true ↔ item.1 ∈ met
  taken : ∀ key ∈ met, key ∈ signed → key ∈ state.providedSignatures.map Prod.fst
  wildcard : AccountName.temp ∈ state.approvedBy
  cached : ∀ name ∈ state.approvedBy, name ≠ AccountName.temp → ∃ depth auth found,
    env.getActive name = .ok auth ∧ FitsDepth env.getActive depth auth ∧
      walk env.getActive env.maxMembership signed depth auth = .ok found ∧
      found.verdict = true ∧ found.met ⊆ met

/-- The counter of accounts leaves room for some more. -/
def SignState.Spares (env : SignEnv) (cost : Nat) (state : SignState) : Prop :=
  0 < env.maxAccountAuths → state.accountAuthCount + cost ≤ env.maxAccountAuths

section Check

variable {env : SignEnv} {signed met : List PublicKey} {s t : SignState}

theorem SignState.Tracks.congr {other : List PublicKey} (tracks : s.Tracks env signed met)
    (same : ∀ key, key ∈ met ↔ key ∈ other) : s.Tracks env signed other where
  keys := tracks.keys
  used item member := (tracks.used item member).trans (same item.1)
  taken key member := tracks.taken key ((same key).mpr member)
  wildcard := tracks.wildcard
  cached name member proper := by
    obtain ⟨depth, auth, found, active, fits, walked, verdict, sub⟩ :=
      tracks.cached name member proper
    exact ⟨depth, auth, found, active, fits, walked, verdict, fun key seen =>
      (same key).mp (sub seen)⟩

theorem SignState.Tracks.again {seen : List PublicKey} (tracks : s.Tracks env signed met)
    (sub : seen ⊆ met) : s.Tracks env signed (met ++ seen) := by
  refine tracks.congr fun key => ?_
  rw [List.mem_append]
  exact ⟨.inl, fun either => either.elim id fun member => sub member⟩

theorem SignState.Tracks.counting (tracks : s.Tracks env signed met) (count : Nat) :
    ({ s with accountAuthCount := count } : SignState).Tracks env signed met :=
  ⟨tracks.keys, tracks.used, tracks.taken, tracks.wildcard, tracks.cached⟩

theorem SignState.Tracks.approving {name : AccountName} {found : Walk}
    (tracks : s.Tracks env signed met) (active : env.getActive name = .ok auth)
    (fits : FitsDepth env.getActive depth auth)
    (walked : walk env.getActive env.maxMembership signed depth auth = .ok found)
    (verdict : found.verdict = true) (sub : found.met ⊆ met) :
    ({ s with approvedBy := name :: s.approvedBy } : SignState).Tracks env signed met := by
  refine ⟨tracks.keys, tracks.used, tracks.taken, List.mem_cons_of_mem name tracks.wildcard,
    fun other member proper => ?_⟩
  rcases List.mem_cons.mp member with rfl | earlier
  · exact ⟨depth, auth, found, active, fits, walked, verdict, sub⟩
  · exact tracks.cached other earlier proper

theorem SignState.Spares.mono {cost less : Nat} (spares : s.Spares env cost) (le : less ≤ cost) :
    s.Spares env less :=
  fun limited => Nat.le_trans (Nat.add_le_add_left le _) (spares limited)

/-- The states before and after differ only in the keys that are marked as used. -/
theorem signedBy_tracks (tracks : s.Tracks env signed met) (key : PublicKey) :
    ∃ t, signedBy env key s = .ok (decide (key ∈ signed)) t ∧
      t.Tracks env signed (met ++ [key]) ∧ t.accountAuthCount = s.accountAuthCount := by
  obtain ⟨provided, looked, keys, items⟩ := signedBy_spec env key s
  rw [decide_eq_decide.mpr (tracks.keys key).symm] at looked
  refine ⟨_, looked, ⟨fun other => ?_, fun item member => ?_, fun other member signs => ?_,
    tracks.wildcard, fun name member proper => ?_⟩, rfl⟩
  · rw [tracks.keys, keys, or_assoc]
    refine or_congr_right (or_iff_right_of_imp ?_).symm
    rintro ⟨rfl, available⟩
    exact available
  · rw [List.mem_append, List.mem_singleton]
    rcases items item member with rfl | ⟨other, stored⟩
    · exact iff_of_true rfl (.inr rfl)
    · rw [or_iff_left other]
      exact tracks.used item stored
  · rw [keys]
    rcases List.mem_append.mp member with earlier | now
    · exact .inl (tracks.taken other earlier signs)
    · obtain rfl := List.mem_singleton.mp now
      exact ((tracks.keys other).mp signs).imp id fun available => ⟨rfl, available⟩
  · obtain ⟨depth, auth, found, active, fits, walked, verdict, sub⟩ :=
      tracks.cached name member proper
    exact ⟨depth, auth, found, active, fits, walked, verdict,
      List.subset_append_of_subset_left _ sub⟩

theorem checkKeyAuths_tracks (threshold : Nat) (keys : List (PublicKey × Nat))
    (weight membership : Nat) (tracks : s.Tracks env signed met) :
    ∃ t, checkKeyAuths env threshold keys weight membership s =
        .ok (walkKeys signed env.maxMembership threshold keys weight membership).1 t ∧
      t.Tracks env signed
        (met ++ (walkKeys signed env.maxMembership threshold keys weight membership).2) ∧
      t.accountAuthCount = s.accountAuthCount := by
  induction keys generalizing s met weight membership with
  | nil => exact ⟨s, rfl, tracks.again (List.nil_subset _), rfl⟩
  | cons item rest inductionHypothesis =>
    obtain ⟨key, extra⟩ := item
    obtain ⟨middle, looked, middleTracks, middleCount⟩ := signedBy_tracks tracks key
    rw [checkKeyAuths, bind_of_ok looked, walkKeys]
    simp only [decide_eq_true_eq]
    generalize (if key ∈ signed then weight + extra else weight) = counted
    split
    · exact ⟨middle, rfl, middleTracks, middleCount⟩
    · split
      · exact ⟨middle, rfl, middleTracks, middleCount⟩
      · obtain ⟨last, run, lastTracks, lastCount⟩ :=
          inductionHypothesis counted (membership + 1) middleTracks
        refine ⟨last, run, ?_, lastCount.trans middleCount⟩
        rw [List.append_cons]
        exact lastTracks

/-- The outcome of a check over keys met so far: the walk's verdict, with the keys it has met. -/
def Tracked (env : SignEnv) (signed met : List PublicKey) (budget : Nat) (found : Walk)
    (verdict : Bool) (state : SignState) : Prop :=
  verdict = found.verdict ∧ state.Tracks env signed (met ++ found.met) ∧ state.Spares env budget

/-- How the loop over accounts comes to the answer of one of them: from the cache, or by a check
that has some accounts to spare and may be remembered. -/
structure Answers (env : SignEnv) (signed : List PublicKey)
    (recurse : Option (AccountName → SignM Bool)) (ask : AccountName → Except ChainError Walk)
    (cost : Nat) (name : AccountName) : Prop where
  cached : ∀ {met : List PublicKey} {s : SignState}, s.Tracks env signed met →
    name ∈ s.approvedBy → ∃ answer, ask name = .ok answer ∧ answer.verdict = true ∧
      answer.met ⊆ met
  asked : ∀ {met : List PublicKey} {s : SignState}, s.Tracks env signed met →
    name ∉ s.approvedBy → ∃ check below, recurse = some check ∧ cost = below + 1 ∧
      ∀ (budget : Nat) {met : List PublicKey} {s : SignState}, s.Tracks env signed met →
      s.Spares env (below + budget) →
      Follows (check name) s (ask name) fun answer verdict t =>
        Tracked env signed met budget answer verdict t ∧ (verdict = true →
          ({ t with approvedBy := name :: t.approvedBy } : SignState).Tracks env signed
            (met ++ answer.met))

theorem checkAccountAuths_follows {threshold budget : Nat}
    {recurse : Option (AccountName → SignM Bool)} {ask : AccountName → Except ChainError Walk}
    {cost : AccountName → Nat} (each : ∀ item ∈ accounts,
      Answers env signed recurse ask (cost item.1.toStdString) item.1.toStdString)
    (tracks : s.Tracks env signed met)
    (spares : s.Spares env ((accounts.map fun item => cost item.1.toStdString).sum + budget)) :
    Follows (checkAccountAuths env threshold recurse accounts weight membership) s
      (walkMembers env.maxMembership threshold ask accounts weight membership)
      (Tracked env signed met budget) := by
  induction accounts generalizing s met weight membership with
  | nil =>
    refine .done ⟨rfl, tracks.again (List.nil_subset _), ?_⟩
    exact spares.mono (Nat.le_add_left _ _)
  | cons item rest inductionHypothesis =>
    obtain ⟨name, extra⟩ := item
    obtain ⟨cached, asked⟩ := each _ List.mem_cons_self
    have restEach : ∀ item ∈ rest,
        Answers env signed recurse ask (cost item.1.toStdString) item.1.toStdString :=
      fun other member => each other (List.mem_cons_of_mem _ member)
    rw [List.map_cons, List.sum_cons, Nat.add_assoc] at spares
    -- The way on once the account has answered, with its weight counted or not.
    have goesOn {u : SignState} {answer : Walk} (counted : Nat)
        (middle : u.Tracks env signed (met ++ answer.met))
        (spared : u.Spares env ((rest.map fun item => cost item.1.toStdString).sum + budget)) :
        Follows (if 0 < env.maxMembership ∧ env.maxMembership ≤ membership + 1 then pure false
            else checkAccountAuths env threshold recurse rest counted (membership + 1)) u
          (if 0 < env.maxMembership ∧ env.maxMembership ≤ membership + 1
            then .ok ⟨false, answer.met⟩
            else walkMembers env.maxMembership threshold ask rest counted (membership + 1) >>=
              fun later => .ok ⟨later.verdict, answer.met ++ later.met⟩)
          (Tracked env signed met budget) := by
      split
      · exact .done ⟨rfl, middle, spared.mono (Nat.le_add_left _ _)⟩
      · refine (inductionHypothesis restEach middle spared).map fun later verdict t tracked => ?_
        rw [Tracked, List.append_assoc] at tracked
        exact tracked
    have approved {u : SignState} {answer : Walk} (middle : u.Tracks env signed (met ++ answer.met))
        (spared : u.Spares env ((rest.map fun item => cost item.1.toStdString).sum + budget)) :
        Follows (if threshold ≤ weight + extra then pure true
            else if 0 < env.maxMembership ∧ env.maxMembership ≤ membership + 1 then pure false
            else checkAccountAuths env threshold recurse rest (weight + extra) (membership + 1)) u
          (if threshold ≤ weight + extra then .ok ⟨true, answer.met⟩
            else if 0 < env.maxMembership ∧ env.maxMembership ≤ membership + 1
            then .ok ⟨false, answer.met⟩
            else walkMembers env.maxMembership threshold ask rest (weight + extra)
              (membership + 1) >>= fun later => .ok ⟨later.verdict, answer.met ++ later.met⟩)
          (Tracked env signed met budget) := by
      by_cases enough : threshold ≤ weight + extra
      · rw [if_pos enough, if_pos enough]
        exact .done ⟨rfl, middle, spared.mono (Nat.le_add_left _ _)⟩
      · rw [if_neg enough, if_neg enough]
        exact goesOn _ middle spared
    rw [checkAccountAuths]
    refine .after (a := s) (t := s) rfl ?_
    dsimp only
    rw [walkMembers]
    by_cases isCached : name.toStdString ∈ s.approvedBy
    · obtain ⟨answer, answered, verdict, sub⟩ := cached tracks isCached
      rw [if_pos isCached, answered]
      have follows := approved (tracks.again sub) (spares.mono (Nat.le_add_left _ _))
      show Follows _ s (if answer.verdict = true ∧ _ then _ else _) _
      rw [verdict, if_pos rfl]
      simp only [true_and]
      exact follows
    · obtain ⟨check, below, isCheck, price, checks⟩ := asked tracks isCached
      subst isCheck
      rw [price] at spares
      rw [if_neg isCached]
      dsimp only
      rw [if_neg fun limited => ?_]
      · refine .after (a := ⟨⟩) (t := { s with accountAuthCount := s.accountAuthCount + 1 }) rfl ?_
        refine .bind (checks ((rest.map fun item => cost item.1.toStdString).sum + budget)
          (tracks.counting _) ?_) fun answer verdict t _ tracked => ?_
        · intro limited
          have := spares limited
          show s.accountAuthCount + 1 + _ ≤ _
          omega
        · obtain ⟨⟨same, middle, spared⟩, remembered⟩ := tracked
          subst same
          cases accepted : answer.verdict with
          | true =>
            simp only [if_true, true_and]
            refine .after (a := ⟨⟩) (t := { t with approvedBy := name.toStdString :: t.approvedBy })
              rfl ?_
            exact approved (remembered accepted) spared
          | false =>
            simp only [Bool.false_eq_true, if_false, false_and]
            exact goesOn _ middle spared
      · have := spares limited.1
        omega

/-- The loop over keys, and the loop over accounts after it, follow the walk. -/
theorem loops_follow {budget : Nat} {recurse : Option (AccountName → SignM Bool)}
    {ask : AccountName → Except ChainError Walk} {next : Bool ⊕ Nat × Nat → SignM Bool}
    (cost : AccountName → Nat) (early : ∀ verdict, next (.inl verdict) = pure verdict)
    (late : ∀ weight membership, next (.inr (weight, membership)) =
      checkAccountAuths env auth.weightThreshold recurse auth.accountAuths weight membership)
    (each : ∀ item ∈ auth.accountAuths,
      Answers env signed recurse ask (cost item.1.toStdString) item.1.toStdString)
    (tracks : s.Tracks env signed met) (spares : s.Spares env
      ((auth.accountAuths.map fun item => cost item.1.toStdString).sum + budget)) :
    Follows (checkKeyAuths env auth.weightThreshold auth.keyAuths 0 0 >>= next) s
      (walkWith signed env.maxMembership ask auth) (Tracked env signed met budget) := by
  obtain ⟨middle, run, middleTracks, sameCount⟩ :=
    checkKeyAuths_tracks auth.weightThreshold auth.keyAuths 0 0 tracks
  refine .after run ?_
  unfold walkWith
  have spared : middle.Spares env
      ((auth.accountAuths.map fun item => cost item.1.toStdString).sum + budget) := by
    unfold SignState.Spares
    rw [sameCount]
    exact spares
  generalize walkKeys signed env.maxMembership auth.weightThreshold auth.keyAuths 0 0 = walked
    at middleTracks ⊢
  obtain ⟨outcome, seen⟩ := walked
  cases outcome with
  | inl verdict =>
    rw [early]
    exact .done ⟨rfl, middleTracks, spared.mono (Nat.le_add_left _ _)⟩
  | inr weighed =>
    rw [late]
    refine (checkAccountAuths_follows each middleTracks spared).map fun later verdict t tracked => ?_
    rw [Tracked, List.append_assoc] at tracked
    exact tracked

/-- Within a tree that fits the limits the check follows the walk. -/
theorem checkAuthorityImpl_follows {remaining : Nat} (budget : Nat)
    (fits : FitsDepth env.getActive remaining auth) (tracks : s.Tracks env signed met)
    (spares : s.Spares env (accountEntries env.getActive remaining auth + budget)) :
    Follows (checkAuthorityImpl env remaining auth) s
      (walk env.getActive env.maxMembership signed remaining auth)
      (Tracked env signed met budget) := by
  induction remaining generalizing s met auth budget with
  | zero =>
    rw [checkAuthorityImpl]
    refine loops_follow (fun _ => 0) (fun _ => rfl) (fun _ _ => rfl) ?_ tracks ?_
    · intro item member
      refine ⟨fun _ _ => ⟨⟨true, []⟩, ?_, rfl, List.nil_subset _⟩, fun {_ _} tracks absent => ?_⟩
      · rw [decide_eq_true (fits item member)]
      · rw [fits item member] at absent
        exact absurd tracks.wildcard absent
    · rw [List.map_const', List.sum_replicate_nat, Nat.mul_zero]
      exact spares
  | succ deeper inductionHypothesis =>
    rw [checkAuthorityImpl]
    refine loops_follow (fun name => if name = AccountName.temp then 0
      else countActive env.getActive (accountEntries env.getActive deeper) name + 1)
      (fun _ => rfl) (fun _ _ => rfl) ?_ tracks spares
    intro item member
    refine ⟨fun {met s} tracks isCached => ?_, fun {met s} tracks absent => ?_⟩
    · by_cases wildcard : item.1.toStdString = AccountName.temp
      · rw [if_pos wildcard]
        exact ⟨_, rfl, rfl, List.nil_subset _⟩
      · obtain ⟨depth, next, found, active, fitsElsewhere, walked, verdict, sub⟩ :=
          tracks.cached _ isCached wildcard
        rw [if_neg wildcard, active]
        refine ⟨found, ?_, verdict, sub⟩
        exact (walk_depth_irrel (fits item member wildcard next active) fitsElsewhere).trans walked
    · have wildcard : item.1.toStdString ≠ AccountName.temp := fun same =>
        absent (same ▸ tracks.wildcard)
      rw [if_neg wildcard]
      refine ⟨_, _, rfl, rfl, fun budget met s tracks spares => ?_⟩
      rw [if_neg wildcard]
      refine .lift fun next active => ?_
      have fitsNext := fits item member wildcard next active
      rw [countActive, active] at spares
      refine (inductionHypothesis budget fitsNext tracks spares).known.mono
        fun answer verdict t tracked => ?_
      obtain ⟨walked, tracked⟩ := tracked
      refine ⟨tracked, fun accepted => ?_⟩
      exact tracked.2.1.approving active fitsNext walked (tracked.1 ▸ accepted)
        (List.subset_append_right _ _)

/-- A tree of authorities fits the limits of a check: no account is left to look at when the depth
is used up, and there are fewer accounts to look at than may be looked at. -/
structure SignEnv.Fits (env : SignEnv) (auth : Authority) : Prop where
  depth : FitsDepth env.getActive env.maxRecursion auth
  accounts : 0 < env.maxAccountAuths →
    accountEntries env.getActive env.maxRecursion auth < env.maxAccountAuths

/-- The verdict of a check and the keys it has met are those of the walk. -/
def Agrees (env : SignEnv) (signed met : List PublicKey) (found : Walk) (verdict : Bool)
    (state : SignState) : Prop :=
  verdict = found.verdict ∧ state.Tracks env signed (met ++ found.met)

theorem checkAuthority_follows (fits : env.Fits auth) (tracks : s.Tracks env signed met) :
    Follows (checkAuthority env auth) s
      (walk env.getActive env.maxMembership signed env.maxRecursion auth)
      (Agrees env signed met) := by
  refine .after (a := ⟨⟩) (t := { s with accountAuthCount := 0 }) rfl ?_
  refine (checkAuthorityImpl_follows 0 fits.depth (tracks.counting 0) ?_).mono
    fun found verdict t tracked => ⟨tracked.1, tracked.2.1⟩
  intro limited
  have := fits.accounts limited
  show 0 + _ ≤ _
  omega

theorem checkAuthorityOf_follows {id : AccountName}
    (fits : ∀ auth, env.getActive id.toStdString = .ok auth → env.Fits auth)
    (tracks : s.Tracks env signed met) :
    Follows (checkAuthorityOf env id) s
      (askAccount env.getActive env.maxMembership signed env.maxRecursion id.toStdString)
      (Agrees env signed met) := by
  rw [checkAuthorityOf]
  refine .after (a := s) (t := s) rfl ?_
  unfold askAccount
  by_cases isCached : id.toStdString ∈ s.approvedBy
  · rw [if_pos isCached]
    by_cases wildcard : id.toStdString = AccountName.temp
    · rw [if_pos wildcard]
      exact .done ⟨rfl, tracks.again (List.nil_subset _)⟩
    · obtain ⟨depth, auth, found, active, fitsElsewhere, walked, verdict, sub⟩ :=
        tracks.cached _ isCached wildcard
      have same : walk env.getActive env.maxMembership signed env.maxRecursion auth = .ok found :=
        (walk_depth_irrel (fits auth active).depth fitsElsewhere).trans walked
      rw [if_neg wildcard, active]
      show Follows _ s (walk env.getActive env.maxMembership signed env.maxRecursion auth) _
      rw [same]
      exact .done ⟨verdict.symm, tracks.again sub⟩
  · have wildcard : id.toStdString ≠ AccountName.temp := fun same =>
      isCached (same ▸ tracks.wildcard)
    rw [if_neg isCached, if_neg wildcard]
    refine .after (a := ⟨⟩) (t := { s with accountAuthCount := 1 }) rfl ?_
    refine .lift fun auth active => ?_
    refine (checkAuthorityImpl_follows 0 (fits auth active).depth
      (tracks.counting 1) ?_).mono fun found verdict t tracked => ⟨tracked.1, tracked.2.1⟩
    intro limited
    have := (fits auth active).accounts limited
    show 1 + _ ≤ _
    omega

theorem SignState.initial_tracks (env : SignEnv) (sigs : List PublicKey) :
    (SignState.initial sigs).Tracks env (sigs ++ env.availableKeys) [] where
  keys key := by rw [SignState.map_fst_initial, List.mem_append]
  used item member := by
    obtain ⟨key, _, rfl⟩ := List.mem_map.mp member
    exact iff_of_false Bool.false_ne_true List.not_mem_nil
  taken key member := absurd member List.not_mem_nil
  wildcard := List.mem_singleton_self _
  cached name member proper := absurd (List.mem_singleton.mp member) proper

end Check

/-! ### Accounts checked one after the other -/

/-- `check_authority` of some accounts in turn, in one `sign_state`: whether all of them are
accepted. -/
def acceptsAll (env : SignEnv) : List AccountName → SignM Bool
  | [] => return true
  | id :: rest => do
    if ← checkAuthorityOf env id then acceptsAll env rest else return false

/-- The accounts are all accepted with the given signing keys. -/
def Accepts (env : SignEnv) (ids : List AccountName) (keys : List PublicKey) : Prop :=
  ∃ t, acceptsAll env ids (.initial keys) = .ok true t

instance (env : SignEnv) (ids : List AccountName) (keys : List PublicKey) :
    Decidable (Accepts env ids keys) :=
  match run : acceptsAll env ids (.initial keys) with
  | .ok true t => .isTrue ⟨t, run⟩
  | .ok false _ => .isFalse fun ⟨_, accepted⟩ => by
      rw [run] at accepted
      cases accepted
  | .error _ _ => .isFalse fun ⟨_, accepted⟩ => by
      rw [run] at accepted
      cases accepted

/-- Within the limits the accounts are accepted if the walk approves each of them. -/
theorem acceptsAll_iff {env : SignEnv} {signed met : List PublicKey} {s : SignState}
    {ids : List AccountName} (tracks : s.Tracks env signed met)
    (fits : ∀ id ∈ ids, ∀ auth, env.getActive id.toStdString = .ok auth → env.Fits auth) :
    (∃ t, acceptsAll env ids s = .ok true t) ↔
      ∀ id ∈ ids, ∃ found, askAccount env.getActive env.maxMembership signed env.maxRecursion
        id.toStdString = .ok found ∧ found.verdict = true := by
  induction ids generalizing s met with
  | nil => exact iff_of_true ⟨s, rfl⟩ (List.forall_mem_nil _)
  | cons id rest inductionHypothesis =>
    have follows := checkAuthorityOf_follows (fits id List.mem_cons_self) tracks
    have restFits : ∀ id ∈ rest, ∀ auth, env.getActive id.toStdString = .ok auth → env.Fits auth :=
      fun other member => fits other (List.mem_cons_of_mem id member)
    rw [List.forall_mem_cons]
    constructor
    · rintro ⟨t, run⟩
      rw [acceptsAll, bind_eq_ok] at run
      obtain ⟨verdict, middle, checked, run⟩ := run
      obtain ⟨found, asked, same, middleTracks⟩ := follows.of_ok checked
      cases verdict with
      | false => exact absurd (pure_eq_ok.mp run).1 Bool.false_ne_true
      | true =>
        exact ⟨⟨found, asked, same.symm⟩, (inductionHypothesis middleTracks restFits).mp ⟨t, run⟩⟩
    · rintro ⟨⟨found, asked, approves⟩, others⟩
      obtain ⟨verdict, middle, checked, same, middleTracks⟩ := follows.1 found asked
      obtain ⟨t, run⟩ := (inductionHypothesis middleTracks restFits).mpr others
      refine ⟨t, ?_⟩
      rw [acceptsAll, bind_of_ok checked, same, approves]
      exact run

namespace DeepAuthorities

def root : AccountName := .ofChars ['r', 'o', 'o', 't']
def near : AccountName := .ofChars ['n', 'e', 'a', 'r']
def far : AccountName := .ofChars ['f', 'a', 'r']
def further : AccountName := .ofChars ['f', 'u', 'r', 't', 'h', 'e', 'r']
def signer : AccountName := .ofChars ['s', 'i', 'g', 'n', 'e', 'r']
def nearKey : PublicKey := ⟨1⟩
def signerKey : PublicKey := ⟨2⟩

/-- Two accounts are needed for `root`. The first has a key of its own, beside the signer; the
second is two accounts away from the signer, beyond the depth of a check. -/
def getActive (name : AccountName) : Except ChainError Authority :=
  if name = root then .ok ⟨2, [(near, 1), (far, 1)], []⟩
  else if name = near then .ok ⟨1, [(signer, 1)], [(nearKey, 1)]⟩
  else if name = far then .ok ⟨1, [(further, 1)], []⟩
  else if name = further then .ok (.ofAccount signer)
  else if name = signer then .ok (.ofKey signerKey)
  else .error .unknownKey

theorem getActive_near :
    getActive near.toStdString = .ok ⟨1, [(signer, 1)], [(nearKey, 1)]⟩ := by
  decide +kernel

theorem getActive_signer : getActive signer.toStdString = .ok (.ofKey signerKey) := by
  decide +kernel

/-- Beside the signer there is nobody else to look at for the first account. -/
theorem fits_near (active : getActive near.toStdString = .ok auth) :
    (SignLimits.standard.signEnv getActive).Fits auth := by
  obtain rfl := Except.ok.inj (getActive_near.symm.trans active)
  refine ⟨fun item member _ next found => ?_, fun _ => by decide +kernel⟩
  obtain rfl := List.mem_singleton.mp member
  obtain rfl := Except.ok.inj (getActive_signer.symm.trans found)
  exact List.forall_mem_nil _

end DeepAuthorities

end Zattera
