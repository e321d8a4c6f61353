/-
This file shows who can change who controls an account. The authorities of an
account are written when it is created and by the operations that update or recover
that account, and by nothing else; once stored they are never removed. A whole
transaction changes no more than its operations may write.
-/

import Zattera.Proof.Duplicates

namespace Zattera

open Program

set_option synthInstance.maxSize 1024

variable {s t : ChainState} {u : Unit} {ops : List Operation}

inductive Role where
  | owner | active | posting

def AccountAuthority.as (auth : AccountAuthority) : Role → Authority
  | .owner => auth.owner
  | .active => auth.active
  | .posting => auth.posting

/-- An operation names an authority that an account is to have. -/
def Operation.Grants (name : AccountName) (auth : Authority) : Role → Operation → Prop
  | .owner, .accountUpdate o => o.account = name ∧ o.owner = some auth
  | .active, .accountUpdate o => o.account = name ∧ o.active = some auth
  | .posting, .accountUpdate o => o.account = name ∧ o.posting = some auth
  | .owner, .recoverAccount o => o.accountToRecover = name ∧ o.newOwnerAuthority = auth
  | _, _ => False

/-- Authorities that are stored stay, and what is new about them is granted by some operations. -/
def Granted (ops : List Operation) (s t : ChainState) : Prop :=
  ∀ before ∈ s.accountAuthorities, ∃ after ∈ t.accountAuthorities,
    after.account = before.account ∧ ∀ role, after.as role = before.as role ∨
      ∃ op ∈ ops, op.Grants before.account (after.as role) role

instance : Std.Refl (Granted ops) := ⟨fun _ auth member => ⟨auth, member, rfl, fun _ => .inl rfl⟩⟩

instance : IsTrans ChainState (Granted ops) where
  trans s v t first second before member := by
    obtain ⟨middle, stored, named, each⟩ := first before member
    obtain ⟨after, last, again, further⟩ := second middle stored
    refine ⟨after, last, again.trans named, fun role => ?_⟩
    rcases further role with same | granted
    · rw [same]
      exact each role
    · exact .inr (named ▸ granted)

theorem Granted.mono {more : List Operation} (granted : Granted ops s t) (part : ops ⊆ more) :
    Granted more s t := by
  intro before member
  obtain ⟨after, stored, named, each⟩ := granted before member
  exact ⟨after, stored, named, fun role => (each role).imp_right fun ⟨op, listed, grants⟩ =>
    ⟨op, part listed, grants⟩⟩

theorem granted_of_same (same : t.accountAuthorities = s.accountAuthorities) : Granted ops s t :=
  fun before member => ⟨before, same ▸ member, rfl, fun _ => .inl rfl⟩

instance : Overlooks (Granted ops) (Covered [.accounts, .dgp, .witnesses, .vestingDelegations,
    .ownerHistories, .nextHistoryId, .recoveryRequests]) where
  holds same := granted_of_same (same (.part .accountAuthorities) (by decide))

instance (auth : AccountAuthority) : Respects (Granted ops) (insertAccountAuthority auth) :=
  respects_create fun _ _ added before member =>
    ⟨before, (Table.mem_of_insert? added).mpr (.inl member), rfl, fun _ => .inl rfl⟩

/-- What is stored for an account is read and stored again. -/
theorem granted_put {name : AccountName} {change : AccountAuthority → AccountAuthority}
    (named : ∀ auth, (change auth).account = auth.account)
    (each : ∀ auth role, (change auth).as role = auth.as role ∨
      ∃ op ∈ ops, op.Grants name ((change auth).as role) role) :
    Respects (Granted ops) (getAccountAuthority name >>= fun auth =>
      putAccountAuthority (change auth)) where
  related s _ t run before member := by
    simp only [getAccountAuthority, bind_eq_ok, get_eq_ok, lookup_eq_ok, and_assoc, exists_and_left,
      exists_eq_left'] at run
    obtain ⟨auth, found, put⟩ := run
    obtain rfl := modify_eq_ok.mp put
    obtain rfl : auth.account = name := Table.key_of_find? found
    by_cases same : before.account = auth.account
    · rw [← same, Table.find?_of_mem member] at found
      cases found
      exact ⟨change before, Table.mem_replace.mpr (.inr ⟨rfl, before, member, (named before).symm⟩),
        named before, each before⟩
    · exact ⟨before, Table.mem_replace.mpr (.inl ⟨member, (named auth).symm ▸ same⟩), rfl,
        fun _ => .inl rfl⟩

theorem granted_updateOwnerAuthority {name : AccountName} {auth : Authority}
    (granted : ∃ op ∈ ops, op.Grants name auth .owner) :
    Respects (Granted ops) (updateOwnerAuthority name auth) := by
  have stored (time : TimePointSec) := @granted_put ops name
    (fun stored => { stored with owner := auth, lastOwnerUpdate := time }) (fun _ => rfl)
    fun stored role => match role with
      | .owner => .inr granted
      | .active | .posting => .inl rfl
  have recorded : Respects (Granted ops) (recordOwnerHistory name) :=
    .step inferInstance fun _ => .step inferInstance fun _ =>
      respects_create fun _ _ _ => granted_of_same rfl
  dsimp only [updateOwnerAuthority]
  exact .step inferInstance fun state => .step inferInstance fun _ => stored state.dgp.time

theorem granted_accountUpdate {o : AccountUpdateOperation} (member : .accountUpdate o ∈ ops) :
    Respects (Granted ops) (accountUpdateEvaluator o) := by
  have stored := @granted_put ops o.account
    (fun auth => { auth with
      active := o.active.getD auth.active
      posting := o.posting.getD auth.posting }) (fun _ => rfl) fun auth role => by
    cases role with
    | owner => exact .inl rfl
    | active =>
      cases given : o.active with
      | none => exact .inl rfl
      | some active => exact .inr ⟨_, member, rfl, given⟩
    | posting =>
      cases given : o.posting with
      | none => exact .inl rfl
      | some posting => exact .inr ⟨_, member, rfl, given⟩
  dsimp only [accountUpdateEvaluator]
  iterate 8 refine .step inferInstance fun _ => ?_
  refine .step ?_ fun _ => ?_
  · unfold checkOptional
    split
    · next auth given =>
      iterate 2 refine .step inferInstance fun _ => ?_
      exact granted_updateOwnerAuthority ⟨_, member, rfl, given⟩
    · infer_instance
  · iterate 3 refine .step inferInstance fun _ => ?_
    exact .guarded fun _ => stored

theorem granted_applyOperation {producing : Bool} {op : Operation} (member : op ∈ ops)
    (touched : Touches [.accountAuthorities] op.footprint) :
    Respects (Granted ops) (applyOperation producing op) := by
  have created (name creator : AccountName) (owner active posting : Authority)
      (received : ShareType) :
      Respects (Granted ops) (createAccount name creator owner active posting received) := by
    have inserted (account : Account) : Respects (Granted ops) (insertAccount account) :=
      respects_create fun _ _ _ => granted_of_same rfl
    dsimp only [createAccount]
    infer_instance
  cases op with
  | accountUpdate o => exact granted_accountUpdate member
  | recoverAccount o =>
    have granted : Respects (Granted ops)
        (updateOwnerAuthority o.accountToRecover o.newOwnerAuthority) :=
      granted_updateOwnerAuthority ⟨_, member, rfl, rfl⟩
    dsimp only [applyOperation, recoverAccountEvaluator]
    iterate 4 refine .step inferInstance fun _ => ?_
    split
    · infer_instance
    · repeat with_reducible refine .step inferInstance fun _ => ?_
      exact overlooked_updateAccount [.record] fun _ => rfl
  | accountCreate o | accountCreateWithDelegation o | createClaimedAccount o =>
    dsimp only [applyOperation, accountCreateEvaluator, accountCreateWithDelegationEvaluator,
      createClaimedAccountEvaluator]
    repeat first
      | with_reducible refine .step ?_ fun _ => ?_
      | infer_instance
      | exact overlooked_modifyAccount [.liquid, .record] fun _ => .bind fun _ => .pure rfl
      | exact overlooked_modifyAccount [.liquid, .delegated] fun _ =>
          .bind fun _ => .bind fun _ => .pure rfl
  | _ => exact absurd touched (of_decide_eq_true rfl)

def operationsOf (blocks : List SignedBlock) : List Operation :=
  blocks.flatMap fun block => block.transactions.flatMap SignedTransaction.operations

/-- Along every chain of validated blocks an account keeps its authorities, but for those that an
operation in one of the blocks names for it. -/
theorem authorities_granted {blocks : List SignedBlock}
    (chained : Chained (fun skip => skip.validate = false) s blocks t) :
    Granted (operationsOf blocks) s t := by
  induction chained with
  | start => exact refl _
  | @block blocks before after earlier skip producing next permitted applied inductionHypothesis =>
    have step : Respects (Granted (operationsOf (next :: blocks)))
        (ChainStep.block skip producing next).run := by
      have validated : (ChainStep.block skip producing next).validated := by
        simp [ChainStep.validated, permitted]
      refine @respects_run_of_watched _ [.accountAuthorities] _ _ _ validated
        (fun s t same => granted_of_same (same _ List.mem_cons_self))
        (fun producing op listed _ touched => granted_applyOperation ?_ touched) ?_ (by decide)
      · exact List.mem_flatMap.mpr ⟨next, List.mem_cons_self, listed⟩
      · intro blockStep touched
        cases blockStep <;> exact absurd touched (of_decide_eq_true rfl)
    have wider : Granted (operationsOf (next :: blocks)) s before :=
      inductionHypothesis.mono (List.subset_append_right _ _)
    exact IsTrans.trans _ _ _ wider (step.related _ _ _ applied)

theorem authorities_granted_genesisBlock :
    ∃ state, applyBlock {} false (genesisBlock default []) genesis = .ok () state ∧
      ∃ auth ∈ state.accountAuthorities, auth.account = AccountName.genesis := by
  have finished : Finishes (applyBlock {} false (genesisBlock default [])) genesis := by
    decide +kernel
  obtain ⟨_, state, applied⟩ := finished
  obtain ⟨auth, stored, named, _⟩ := authorities_granted (.block .start {} false _ rfl applied)
    ⟨AccountName.genesis, _, _, _, 0⟩ (.tail _ (.tail _ (.head _)))
  exact ⟨state, applied, auth, stored, named⟩

/-! ### Transactions -/

/-- A transaction changes no part of the state that none of its operations writes. -/
theorem applyTransaction_frame {skip : SkipFlags} {producing : Bool} {trx : SignedTransaction}
    {part : Part} (other : part ≠ .transactions)
    (aside : ∀ op ∈ trx.operations, part ∉ op.footprint)
    (run : applyTransaction skip producing trx s = .ok u t) : part.get t = part.get s := by
  have recorded : Respects (Within [.transactions]) (insertTransaction trx) := inferInstance
  have inserted : Respects (Same part.get) (insertTransaction trx) :=
    recorded.mono fun _ _ same => same part (by simpa using other)
  have framed : Respects (Same part.get) (applyTransaction skip producing trx) := by
    refine .step inferInstance fun _ => .computed fun _ _ => .step inferInstance fun _ => ?_
    exact respects_forM_mem fun op member =>
      (within_applyOperation producing op).mono fun _ _ same => same part (aside op member)
  exact framed.related s u t run

theorem applyTransaction_frame_orders :
    let trx := genesisTransaction
      [.transfer ⟨AccountName.genesis, AccountName.null, ⟨1, .liquid⟩, []⟩]
    ∃ state, applyTransaction {} false trx (initGenesis 1000 0) = .ok () state ∧
      state.limitOrders = .empty := by
  intro trx
  have finished : Finishes (applyTransaction {} false trx) (initGenesis 1000 0) := by decide +kernel
  obtain ⟨_, state, run⟩ := finished
  have aside : ∀ op ∈ trx.operations, Part.limitOrders ∉ op.footprint := by decide
  exact ⟨state, run, applyTransaction_frame Part.noConfusion aside run⟩

end Zattera
