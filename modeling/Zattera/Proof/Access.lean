/-
This file lists the programs of the chain that only look at the state: lookups,
and the checks evaluators make before they change anything. Each respects every
relation that is reflexive and transitive, so proofs about an evaluator can pass
over them. What the basic updates do to the state is said once here as well.
-/

import Zattera.Chain.Genesis

namespace Zattera

open Program

set_option synthInstance.maxSize 1024

variable {name : AccountName} {u : Unit} {account changed : Account}

variable {R : ChainState → ChainState → Prop}

/-! ### Lookups and checks -/

section Reads

variable [Std.Refl R] [IsTrans ChainState R]

omit [IsTrans ChainState R] in
instance {Object : Type} (found : Option Object) : Respects R (lookup found) := by
  unfold lookup
  split <;> infer_instance

omit [IsTrans ChainState R] in
instance {Key Object : Type} {key : Object → Key} (added : Option (Table Key Object key)) :
    Respects R (inserted added) := by
  unfold inserted
  split <;> infer_instance

instance (name : AccountName) : Respects R (getAccount name) := by
  dsimp only [getAccount]
  infer_instance

instance (name : AccountName) : Respects R (getWitness name) := by
  dsimp only [getWitness]
  infer_instance

instance : Respects R headBlockTime := by
  dsimp only [headBlockTime]
  infer_instance

instance (holding required : Asset) (message : String) :
    Respects R (requireAtLeast holding required message) := by
  dsimp only [requireAtLeast]
  infer_instance

instance (auth : Authority) : Respects R (verifyAuthorityAccountsExist auth) := by
  dsimp only [verifyAuthorityAccountsExist]
  infer_instance

instance (auth : Authority) : Respects R (getAuthorityAccounts auth) := by
  dsimp only [getAuthorityAccounts]
  infer_instance

instance (producing : Bool) (owner active posting : Authority) :
    Respects R (validateNewAuthorities producing owner active posting) := by
  dsimp only [validateNewAuthorities]
  infer_instance

instance (o : AccountCreateWithDelegationOperation) : Respects R (requireDelegation o) := by
  dsimp only [requireDelegation]
  infer_instance

instance (name : AccountName) : Respects R (getAccountAuthority name) := by
  dsimp only [getAccountAuthority]
  infer_instance

instance (auth : Option Authority) (check : Authority → Chain Unit)
    [∀ auth, Respects R (check auth)] : Respects R (checkOptional auth check) := by
  unfold checkOptional
  split <;> infer_instance

instance (account : Account) (recoveryAccount : AccountName) :
    Respects R (requireRecoveryAccount account recoveryAccount) := by
  dsimp only [requireRecoveryAccount]
  infer_instance

instance (count : Nat) : Respects R (requireFewAuths count) := by
  dsimp only [requireFewAuths]
  infer_instance

instance (account : AccountName) (escrowId : Nat) : Respects R (getEscrow account escrowId) := by
  dsimp only [getEscrow]
  infer_instance

instance (escrow : Escrow) (toAccount agent : AccountName) :
    Respects R (escrow.requireParties toAccount agent) := by
  dsimp only [Escrow.requireParties]
  infer_instance

instance (escrow : Escrow) (o : EscrowReleaseOperation) (now : TimePointSec) :
    Respects R (escrow.requireRelease o now) := by
  dsimp only [Escrow.requireRelease]
  infer_instance

instance (owner : AccountName) (orderid : Nat) : Respects R (getLimitOrder owner orderid) := by
  dsimp only [getLimitOrder]
  infer_instance

instance (further : Nat) (chain : List AccountName) (name : AccountName) :
    Respects R (requireNoProxyLoop further chain name) := by
  induction further generalizing chain name with
  | zero =>
    unfold requireNoProxyLoop
    infer_instance
  | succ further inductionHypothesis =>
    unfold requireNoProxyLoop
    infer_instance

instance (author : AccountName) (permlink : Text) : Respects R (getComment author permlink) := by
  dsimp only [getComment]
  infer_instance

instance (id : Nat) : Respects R (getCommentById id) := by
  dsimp only [getCommentById]
  infer_instance

instance (o : CommentOperation) : Respects R (findParent o) := by
  dsimp only [findParent]
  infer_instance

instance (author : Account) (parent : Option Comment) (now : TimePointSec) :
    Respects R (requirePostInterval author parent now) := by
  unfold requirePostInterval
  split <;> infer_instance

instance (parent : Option Comment) : Respects R (requireReplies parent) := by
  unfold requireReplies
  split <;> infer_instance

instance (comment : Comment) (now : TimePointSec) :
    Respects R (requireBeforeLockout comment now) := by
  dsimp only [requireBeforeLockout]
  infer_instance

instance (comment : Comment) (rshares : Int64) (newVoteRshares : ShareType) :
    Respects R (newVoteWeight comment rshares newVoteRshares) := by
  dsimp only [newVoteWeight]
  infer_instance

instance (names : List AccountName) : Respects R (freshFeeds names) := by
  induction names with
  | nil =>
    unfold freshFeeds
    infer_instance
  | cons name rest inductionHypothesis =>
    unfold freshFeeds
    infer_instance

instance (names : List AccountName) : Respects R (getScheduled names) := by
  induction names with
  | nil =>
    unfold getScheduled
    infer_instance
  | cons name rest inductionHypothesis =>
    unfold getScheduled
    infer_instance

instance (shares : ShareType) : Respects R (convertVests shares) := by
  dsimp only [convertVests]
  infer_instance

instance (skip : SkipFlags) (block : SignedBlock) : Respects R (validateBlockHeader skip block) := by
  dsimp only [validateBlockHeader]
  infer_instance

instance : Respects R processHardforks := by
  dsimp only [processHardforks]
  infer_instance

end Reads

/-! ### What the basic programs do -/

section Runs

variable {s t : ChainState}

@[simp]
theorem lookup_eq_ok {Object : Type} {found : Option Object} {object : Object} :
    lookup found s = .ok object t ↔ found = some object ∧ s = t := by
  unfold lookup
  split
  · simp
  · simp

@[simp]
theorem inserted_eq_ok {Key Object : Type} {key : Object → Key}
    {added : Option (Table Key Object key)} {table : Table Key Object key} :
    inserted added s = .ok table t ↔ added = some table ∧ s = t := by
  unfold inserted
  split
  · simp
  · simp

theorem create_eq_ok {Key Object : Type} {key : Object → Key} [DecidableEq Key]
    {table : ChainState → Table Key Object key}
    {store : ChainState → Table Key Object key → ChainState} {object : Object} :
    create table store object s = .ok u t ↔
      ∃ added, (table s).insert? object = some added ∧ store s added = t := by
  simp only [create, bind_eq_ok, get_eq_ok, inserted_eq_ok, modify_eq_ok, and_assoc,
    exists_and_left, exists_eq_left']

@[simp]
theorem getAccount_eq_ok :
    getAccount name s = .ok account t ↔ s.accounts.find? name = some account ∧ s = t := by
  rw [getAccount, get_bind_eq_ok, lookup_eq_ok]

@[simp]
theorem getWitness_eq_ok {witness : Witness} :
    getWitness name s = .ok witness t ↔ s.witnesses.find? name = some witness ∧ s = t := by
  rw [getWitness, get_bind_eq_ok, lookup_eq_ok]

@[simp]
theorem headBlockTime_eq_ok {now : TimePointSec} :
    headBlockTime s = .ok now t ↔ s.dgp.time = now ∧ s = t := by
  simp only [headBlockTime, bind_eq_ok, get_eq_ok, pure_eq_ok]
  constructor
  · rintro ⟨_, _, ⟨rfl, rfl⟩, read⟩
    exact read
  · intro read
    exact ⟨s, s, ⟨rfl, rfl⟩, read⟩

theorem requireAtLeast_eq_ok {holding required : Asset} {message : String} :
    requireAtLeast holding required message s = .ok u t ↔
      holding.symbol = required.symbol ∧ required.amount.toInt ≤ holding.amount.toInt ∧ s = t := by
  simp only [requireAtLeast, bind_eq_ok, lift_eq_ok, Asset.lt, Asset.sameSymbol, except_bind_eq_ok,
    ensure_eq_ok, except_pure_eq_ok, require_eq_ok]
  constructor
  · rintro ⟨short, _, ⟨⟨_, same, rfl⟩, rfl⟩, enough, rfl⟩
    rw [decide_eq_false_iff_not, Int64.lt_iff_toInt_lt, not_lt] at enough
    exact ⟨same, enough, rfl⟩
  · rintro ⟨same, enough, rfl⟩
    refine ⟨_, s, ⟨⟨(), same, rfl⟩, rfl⟩, ?_, rfl⟩
    rwa [decide_eq_false_iff_not, Int64.lt_iff_toInt_lt, not_lt]

theorem addBalance_eq_ok {balance delta result : ShareType} {message : String} :
    addBalance balance delta message = .ok result ↔
      result.toInt = balance.toInt + delta.toInt ∧ 0 ≤ result := by
  simp only [addBalance, except_bind_eq_ok, ShareType.add_eq_ok, ensure_eq_ok, except_pure_eq_ok]
  constructor
  · rintro ⟨_, exact_, _, nonneg, rfl⟩
    exact ⟨exact_, nonneg⟩
  · rintro ⟨exact_, nonneg⟩
    exact ⟨result, exact_, (), nonneg, rfl⟩

theorem modifyAccount_eq_ok {change : Account → Except ChainError Account} :
    modifyAccount name change s = .ok u t ↔
      ∃ account changed, s.accounts.find? name = some account ∧ change account = .ok changed ∧
        { s with accounts := s.accounts.replace changed } = t := by
  simp only [modifyAccount, bind_eq_ok, getAccount_eq_ok, lift_eq_ok, putAccount, modify_eq_ok]
  constructor
  · rintro ⟨account, _, ⟨found, rfl⟩, changed, _, ⟨made, rfl⟩, put⟩
    exact ⟨account, changed, found, made, put⟩
  · rintro ⟨account, changed, found, made, put⟩
    exact ⟨account, s, ⟨found, rfl⟩, changed, s, ⟨made, rfl⟩, put⟩

theorem updateAccount_eq_ok {change : Account → Account} :
    updateAccount name change s = .ok u t ↔
      ∃ account, s.accounts.find? name = some account ∧
        { s with accounts := s.accounts.replace (change account) } = t := by
  simp [updateAccount, modifyAccount_eq_ok]

theorem modifyWitness_eq_ok {change : Witness → Except ChainError Witness} :
    modifyWitness name change s = .ok u t ↔
      ∃ witness changed, s.witnesses.find? name = some witness ∧ change witness = .ok changed ∧
        { s with witnesses := s.witnesses.replace changed } = t := by
  simp only [modifyWitness, bind_eq_ok, getWitness_eq_ok, lift_eq_ok, putWitness, modify_eq_ok]
  constructor
  · rintro ⟨witness, _, ⟨found, rfl⟩, changed, _, ⟨made, rfl⟩, put⟩
    exact ⟨witness, changed, found, made, put⟩
  · rintro ⟨witness, changed, found, made, put⟩
    exact ⟨witness, s, ⟨found, rfl⟩, changed, s, ⟨made, rfl⟩, put⟩

theorem modifyDgp_eq_ok
    {change : DynamicGlobalProperties → Except ChainError DynamicGlobalProperties} :
    modifyDgp change s = .ok u t ↔
      ∃ dgp, change s.dgp = .ok dgp ∧ { s with dgp := dgp } = t := by
  simp only [modifyDgp, bind_eq_ok, get_eq_ok, lift_eq_ok, set_eq_ok]
  constructor
  · rintro ⟨_, _, ⟨rfl, rfl⟩, dgp, _, ⟨made, rfl⟩, put⟩
    exact ⟨dgp, made, put⟩
  · rintro ⟨dgp, made, put⟩
    exact ⟨s, s, ⟨rfl, rfl⟩, dgp, s, ⟨made, rfl⟩, put⟩

end Runs

theorem respects_create {Key Object : Type} {key : Object → Key} [DecidableEq Key]
    {table : ChainState → Table Key Object key}
    {store : ChainState → Table Key Object key → ChainState} {object : Object}
    (each : ∀ s added, (table s).insert? object = some added → R s (store s added)) :
    Respects R (create table store object) where
  related s _ t finished := by
    obtain ⟨added, fresh, rfl⟩ := create_eq_ok.mp finished
    exact each s added fresh

theorem respects_modifyAccount {change : Account → Except ChainError Account}
    (each : ∀ s account changed, s.accounts.find? name = some account →
      change account = .ok changed → R s { s with accounts := s.accounts.replace changed }) :
    Respects R (modifyAccount name change) where
  related s _ t finished := by
    obtain ⟨account, changed, found, made, rfl⟩ := modifyAccount_eq_ok.mp finished
    exact each s account changed found made

theorem respects_modifyWitness {change : Witness → Except ChainError Witness}
    (each : ∀ s witness changed, s.witnesses.find? name = some witness →
      change witness = .ok changed → R s { s with witnesses := s.witnesses.replace changed }) :
    Respects R (modifyWitness name change) where
  related s _ t finished := by
    obtain ⟨witness, changed, found, made, rfl⟩ := modifyWitness_eq_ok.mp finished
    exact each s witness changed found made

theorem respects_modifyDgp
    {change : DynamicGlobalProperties → Except ChainError DynamicGlobalProperties}
    (each : ∀ s dgp, change s.dgp = .ok dgp → R s { s with dgp := dgp }) :
    Respects R (modifyDgp change) where
  related s _ t finished := by
    obtain ⟨dgp, made, rfl⟩ := modifyDgp_eq_ok.mp finished
    exact each s dgp made

/-- The rule for a loop over objects of a table, each of which is still there when its turn comes
because no turn touches another object. -/
theorem forM_listed_mem [Std.Refl R] [IsTrans ChainState R] {Key Object : Type}
    {key : Object → Key} [DecidableEq Key] (table : ChainState → Table Key Object key)
    {f : Object → Chain PUnit} {items : List Object}
    (turn : ∀ item ∈ items, ∀ s t u, (table s).find? (key item) = some item → f item s = .ok u t →
      R s t ∧ ∀ k, k ≠ key item → (table t).find? k = (table s).find? k)
    {s t : ChainState} {u : PUnit} (listed : (table s).Lists items)
    (run : forM items f s = .ok u t) : R s t := by
  refine (@forM_related _ _ _ R _ _ f
    (fun rest state => (table state).Lists rest ∧ ∀ item ∈ rest, item ∈ items)
    (fun item rest before after _ left turned => ?_) items s t u ⟨listed, fun _ => id⟩ run).2
  obtain ⟨left, among⟩ := left
  obtain ⟨related, others⟩ := turn item (among item List.mem_cons_self) before after _ left.head turned
  exact ⟨⟨left.tail others, fun other member => among other (List.mem_cons_of_mem _ member)⟩, related⟩

theorem forM_listed [Std.Refl R] [IsTrans ChainState R] {Key Object : Type} {key : Object → Key}
    [DecidableEq Key] (table : ChainState → Table Key Object key) {f : Object → Chain PUnit}
    (turn : ∀ item s t u, (table s).find? (key item) = some item → f item s = .ok u t →
      R s t ∧ ∀ k, k ≠ key item → (table t).find? k = (table s).find? k)
    {items : List Object} {s t : ChainState} {u : PUnit} (listed : (table s).Lists items)
    (run : forM items f s = .ok u t) : R s t :=
  forM_listed_mem table (fun item _ => turn item) listed run

/-! ### Recording proxied votes -/

/-- The account with other votes proxied to it. -/
def Account.withProxied (account : Account) (votes : Vector ShareType 4) : Account :=
  { account with proxiedVsfVotes := votes }

theorem get_set {α : Type} {n : Nat} (votes : Vector α n) (place other : Fin n) (value : α) :
    (votes.set place value).get other = if other = place then value else votes.get other := by
  change (votes.set place value)[other.val] = if other = place then value else votes[other.val]
  rw [Vector.getElem_set]
  simp only [Fin.ext_iff, eq_comm]

theorem Account.addProxied_eq_ok {place : Fin 4} {delta : ShareType} :
    account.addProxied place delta = .ok changed ↔
      ∃ votes : ShareType, votes.toInt = (account.proxiedVsfVotes.get place).toInt + delta.toInt ∧
        account.withProxied (account.proxiedVsfVotes.set place votes place.isLt) = changed := by
  simp only [Account.addProxied, except_bind_eq_ok, ShareType.add_eq_ok, except_pure_eq_ok,
    Account.withProxied]

/-- Adding at distinct places changes only the proxied votes, at each place by its own amount. -/
theorem Account.foldlM_addProxied {amount : Fin 4 → ShareType} {places : List (Fin 4)}
    (distinct : places.Nodup)
    (made : places.foldlM (fun account place => account.addProxied place (amount place)) account =
      .ok changed) :
    changed = account.withProxied changed.proxiedVsfVotes ∧
      ∀ place, (changed.proxiedVsfVotes.get place).toInt =
        (account.proxiedVsfVotes.get place).toInt +
          if place ∈ places then (amount place).toInt else 0 := by
  induction places generalizing account with
  | nil =>
    obtain rfl := except_pure_eq_ok.mp made
    exact ⟨rfl, by simp⟩
  | cons first rest inductionHypothesis =>
    rw [List.nodup_cons] at distinct
    rw [List.foldlM_cons] at made
    obtain ⟨middle, added, folded⟩ := except_bind_eq_ok.mp made
    obtain ⟨votes, exact_, rfl⟩ := Account.addProxied_eq_ok.mp added
    obtain ⟨only, each⟩ := inductionHypothesis distinct.2 folded
    refine ⟨only, fun place => ?_⟩
    rw [each place, Account.withProxied, get_set]
    by_cases same : place = first
    · subst same
      simp [distinct.1, exact_]
    · simp [same]

theorem Account.addProxiedDeltas_eq_ok {delta : VoteDeltas} {depth : Nat}
    (made : account.addProxiedDeltas delta depth = .ok changed) :
    changed = account.withProxied changed.proxiedVsfVotes ∧
      ∀ place : Fin 4, (changed.proxiedVsfVotes.get place).toInt =
        (account.proxiedVsfVotes.get place).toInt +
          if depth ≤ place.val then (delta.get (Fin.ofNat 5 (place.val - depth))).toInt else 0 := by
  have distinct : ((List.finRange 4).reverse.filter
      fun place : Fin 4 => decide (depth ≤ place.val)).Nodup :=
    (List.nodup_reverse.mpr (List.nodup_finRange 4)).filter _
  obtain ⟨only, each⟩ := Account.foldlM_addProxied distinct made
  refine ⟨only, fun place => ?_⟩
  rw [each place]
  simp

end Zattera
