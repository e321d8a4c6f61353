/-
This file models the authority check of a transaction: the walk over keys and
accounts that decides whether the provided signatures satisfy an authority, and
`verify_authority`, which asks for every authority the operations of a
transaction require and for no unused signature. Names are handed around as
strings here, so whatever follows a zero byte in a name is lost.
-/

import Zattera.Protocol.Types

namespace Zattera

open Program

/-! ### The walk over one authority -/

/-- The mutable part of `sign_state`: which provided keys were used, and which accounts have been
approved. `accountAuthCount` is the counter shared by one walk. -/
structure SignState where
  providedSignatures : List (PublicKey × Bool)
  approvedBy : List AccountName
  accountAuthCount : Nat
  deriving DecidableEq, Repr

/-- The fixed part of `sign_state`. The available keys are those that could still sign. -/
structure SignEnv where
  getActive : AccountName → Except ChainError Authority
  availableKeys : List PublicKey
  maxRecursion : Nat
  maxMembership : Nat
  maxAccountAuths : Nat

abbrev SignM := EStateM ChainError SignState

/-- `provided_signatures[ key ] = true` for a key that is not in the map, which is kept in key
order. -/
def addSignature (key : PublicKey) : List (PublicKey × Bool) → List (PublicKey × Bool)
  | [] => [(key, true)]
  | head :: rest =>
    if key.data < head.1.data then (key, true) :: head :: rest
    else head :: addSignature key rest

/-- `signed_by`: a key that has not signed but is available is taken to sign. -/
def signedBy (env : SignEnv) (key : PublicKey) : SignM Bool := do
  let state ← get
  if key ∈ state.providedSignatures.map Prod.fst then
    set { state with
      providedSignatures := state.providedSignatures.map fun (item : PublicKey × Bool) =>
        if item.1 = key then (key, true) else item }
    return true
  else if key ∈ env.availableKeys then
    set { state with providedSignatures := addSignature key state.providedSignatures }
    return true
  else return false

/-- The loop over `key_auths`. It ends early with a verdict, or hands on the weight reached and
the number of members seen. -/
def checkKeyAuths (env : SignEnv) (threshold : Nat) :
    List (PublicKey × Nat) → Nat → Nat → SignM (Bool ⊕ Nat × Nat)
  | [], totalWeight, membership => return .inr (totalWeight, membership)
  | (key, weight) :: rest, totalWeight, membership => do
    let signed ← signedBy env key
    let totalWeight := if signed then totalWeight + weight else totalWeight
    if signed ∧ threshold ≤ totalWeight then return .inl true
    else if 0 < env.maxMembership ∧ env.maxMembership ≤ membership + 1 then return .inl false
    else checkKeyAuths env threshold rest totalWeight (membership + 1)

/-- The loop over `account_auths`. `recurse` checks the authority of another account, and is
absent at the greatest depth, where accounts not yet approved are passed over. -/
def checkAccountAuths (env : SignEnv) (threshold : Nat)
    (recurse : Option (AccountName → SignM Bool)) :
    List (AccountName × Nat) → Nat → Nat → SignM Bool
  | [], totalWeight, _ => return decide (threshold ≤ totalWeight)
  | (name, weight) :: rest, totalWeight, membership => do
    let state ← get
    let account := name.toStdString
    let continueWith (totalWeight : Nat) : SignM Bool :=
      if 0 < env.maxMembership ∧ env.maxMembership ≤ membership + 1 then return false
      else checkAccountAuths env threshold recurse rest totalWeight (membership + 1)
    if account ∈ state.approvedBy then
      if threshold ≤ totalWeight + weight then return true
      else continueWith (totalWeight + weight)
    else match recurse with
    | none => checkAccountAuths env threshold recurse rest totalWeight membership
    | some check =>
      if 0 < env.maxAccountAuths ∧ env.maxAccountAuths ≤ state.accountAuthCount then return false
      else do
        set { state with accountAuthCount := state.accountAuthCount + 1 }
        let approved ← check account
        if approved then
          modify fun state => { state with approvedBy := account :: state.approvedBy }
          if threshold ≤ totalWeight + weight then return true
          else continueWith (totalWeight + weight)
        else continueWith totalWeight

/-- `check_authority_impl`, with `remaining = max_recursion - depth`. -/
def checkAuthorityImpl (env : SignEnv) : Nat → Authority → SignM Bool
  | remaining, auth => do
    let outcome ← checkKeyAuths env auth.weightThreshold auth.keyAuths 0 0
    match outcome with
    | .inl verdict => return verdict
    | .inr (totalWeight, membership) =>
      match remaining with
      | 0 => checkAccountAuths env auth.weightThreshold none auth.accountAuths totalWeight membership
      | deeper + 1 =>
        let recurse (account : AccountName) : SignM Bool := do
          let active ← env.getActive account
          checkAuthorityImpl env deeper active
        checkAccountAuths env auth.weightThreshold (some recurse) auth.accountAuths totalWeight
          membership

/-- `check_authority( const authority& )` -/
def checkAuthority (env : SignEnv) (auth : Authority) : SignM Bool := do
  modify fun state => { state with accountAuthCount := 0 }
  checkAuthorityImpl env env.maxRecursion auth

/-- `check_authority( string id )` -/
def checkAuthorityOf (env : SignEnv) (id : AccountName) : SignM Bool := do
  let state ← get
  if id.toStdString ∈ state.approvedBy then return true
  else do
    set { state with accountAuthCount := 1 }
    let active ← env.getActive id.toStdString
    checkAuthorityImpl env env.maxRecursion active

/-- `remove_unused_signatures`: whether some provided signature was never used. -/
def SignState.hasUnusedSignatures (state : SignState) : Bool :=
  state.providedSignatures.any fun item => !item.2

/-! ### Verifying a transaction -/

/-- The authorities a transaction requires, collected over its operations. The three account sets
are sorted, as `flat_set` is. -/
structure RequiredAuthorities where
  active : List AccountName
  owner : List AccountName
  posting : List AccountName
  other : List Authority
  deriving DecidableEq, Repr

namespace RequiredAuthorities

instance : Inhabited RequiredAuthorities := ⟨⟨[], [], [], []⟩⟩

/-- `flat_set::insert` -/
def insertName (name : AccountName) : List AccountName → List AccountName
  | [] => [name]
  | head :: rest =>
    if name = head then head :: rest
    else if name < head then name :: head :: rest
    else head :: insertName name rest

def addActive (required : RequiredAuthorities) (name : AccountName) : RequiredAuthorities :=
  { required with active := insertName name required.active }

def addOwner (required : RequiredAuthorities) (name : AccountName) : RequiredAuthorities :=
  { required with owner := insertName name required.owner }

def addPosting (required : RequiredAuthorities) (name : AccountName) : RequiredAuthorities :=
  { required with posting := insertName name required.posting }

def addOther (required : RequiredAuthorities) (auth : Authority) : RequiredAuthorities :=
  { required with other := required.other ++ [auth] }

end RequiredAuthorities

/-- The three authority getters a check reads the accounts' authorities through. -/
structure AuthorityGetters where
  getActive : AccountName → Except ChainError Authority
  getOwner : AccountName → Except ChainError Authority
  getPosting : AccountName → Except ChainError Authority

/-- The initial `sign_state`: no key used yet, and the wildcard account approved. -/
def SignState.initial (sigs : List PublicKey) : SignState :=
  ⟨sigs.map fun key => (key, false), [AccountName.temp], 0⟩

/-- The limits a check is called with. -/
structure SignLimits where
  maxRecursion : Nat
  maxMembership : Nat
  maxAccountAuths : Nat
  deriving DecidableEq, Repr

/-- `ZATTERA_MAX_SIG_CHECK_DEPTH`, `ZATTERA_MAX_AUTHORITY_MEMBERSHIP` and
`ZATTERA_MAX_SIG_CHECK_ACCOUNTS`, the default arguments. -/
def SignLimits.standard : SignLimits := ⟨2, 40, 125⟩

/-- The `sign_state` of `verify_authority`, with no keys available beside the provided ones. -/
def SignLimits.signEnv (limits : SignLimits)
    (getActive : AccountName → Except ChainError Authority) : SignEnv where
  getActive := getActive
  availableKeys := []
  maxRecursion := limits.maxRecursion
  maxMembership := limits.maxMembership
  maxAccountAuths := limits.maxAccountAuths

/-- One required posting authority; the active or the owner authority may stand in for it. -/
def requirePosting (limits : SignLimits) (getters : AuthorityGetters) (id : AccountName) :
    SignM Unit := do
  let env := limits.signEnv getters.getPosting
  if ← checkAuthorityOf env id then return ()
  else if ← checkAuthority env (← getters.getActive id.toStdString) then return ()
  else if ← checkAuthority env (← getters.getOwner id.toStdString) then return ()
  else throw .txMissingPostingAuth

/-- One required active authority; the owner authority may stand in for it. -/
def requireActive (limits : SignLimits) (getters : AuthorityGetters) (id : AccountName) :
    SignM Unit := do
  let env := limits.signEnv getters.getActive
  if ← checkAuthorityOf env id then return ()
  else if ← checkAuthority env (← getters.getOwner id.toStdString) then return ()
  else throw .txMissingActiveAuth

/-- One required owner authority. -/
def requireOwner (limits : SignLimits) (getters : AuthorityGetters) (id : AccountName) :
    SignM Unit := do
  let env := limits.signEnv getters.getActive
  if ← checkAuthority env (← getters.getOwner id.toStdString) then return ()
  else throw .txMissingOwnerAuth

/-- One required authority that is not an account's. -/
def requireOther (limits : SignLimits) (getters : AuthorityGetters) (auth : Authority) :
    SignM Unit := do
  if ← checkAuthority (limits.signEnv getters.getActive) auth then return ()
  else throw .txMissingOtherAuth

/-- Every provided signature must have been used. -/
def requireNoUnusedSignatures : SignM Unit := do
  let state ← get
  if state.hasUnusedSignatures then throw .txIrrelevantSig else return ()

/-- The branch of `verify_authority` for operations that require posting authority, which cannot be
combined with others. -/
def verifyPosting (limits : SignLimits) (required : RequiredAuthorities)
    (getters : AuthorityGetters) : SignM Unit := do
  require (required.active.length = 0) (.assertion "required_active.size() == 0")
  require (required.owner.length = 0) (.assertion "required_owner.size() == 0")
  require (required.other.length = 0) (.assertion "other.size() == 0")
  forM required.posting (requirePosting limits getters)
  requireNoUnusedSignatures

/-- The branch of `verify_authority` for all other operations. -/
def verifyOthers (limits : SignLimits) (required : RequiredAuthorities)
    (getters : AuthorityGetters) : SignM Unit := do
  forM required.other (requireOther limits getters)
  forM required.active (requireActive limits getters)
  forM required.owner (requireOwner limits getters)
  requireNoUnusedSignatures

/-- `verify_authority`, with the limits it is given. -/
def verifyAuthorityWithin (limits : SignLimits) (required : RequiredAuthorities)
    (sigs : List PublicKey) (getters : AuthorityGetters) : Except ChainError Unit :=
  let check := if required.posting ≠ [] then verifyPosting limits required getters
    else verifyOthers limits required getters
  match check (SignState.initial sigs) with
  | .ok _ _ => .ok ()
  | .error error _ => .error error

/-- `verify_authority`, with its default limits. -/
def verifyAuthority (required : RequiredAuthorities) (sigs : List PublicKey)
    (getters : AuthorityGetters) : Except ChainError Unit :=
  verifyAuthorityWithin .standard required sigs getters

/-! ### Finding the signatures a transaction needs -/

/-- The `sign_state` of `get_required_signatures`. -/
def SignLimits.searchEnv (limits : SignLimits) (availableKeys : List PublicKey)
    (getActive : AccountName → Except ChainError Authority) : SignEnv :=
  { limits.signEnv getActive with availableKeys := availableKeys }

/-- The branch of `get_required_signatures` for operations that require posting authority. The
verdicts are not looked at, and no other authority stands in. -/
def searchPosting (limits : SignLimits) (required : RequiredAuthorities)
    (availableKeys : List PublicKey) (getters : AuthorityGetters) : SignM Unit := do
  let env := limits.searchEnv availableKeys getters.getPosting
  require (required.owner.length = 0) (.assertion "!required_owner.size()")
  require (required.active.length = 0) (.assertion "!required_active.size()")
  forM required.posting fun posting => discard (checkAuthorityOf env posting)

/-- The branch of `get_required_signatures` for all other operations. -/
def searchOthers (limits : SignLimits) (required : RequiredAuthorities)
    (availableKeys : List PublicKey) (getters : AuthorityGetters) : SignM Unit := do
  let env := limits.searchEnv availableKeys getters.getActive
  forM required.other fun auth => discard (checkAuthority env auth)
  forM required.owner fun owner => do
    discard (checkAuthority env (← getters.getOwner owner.toStdString))
  forM required.active fun active => discard (checkAuthorityOf env active)

/-- `get_required_signatures` for the keys that have signed already: the available keys among those
the search has used. -/
def getRequiredSignatures (limits : SignLimits) (required : RequiredAuthorities)
    (sigs availableKeys : List PublicKey) (getters : AuthorityGetters) :
    Except ChainError (List PublicKey) :=
  let search := if required.posting ≠ [] then searchPosting limits required availableKeys getters
    else searchOthers limits required availableKeys getters
  match search (SignState.initial sigs) with
  | .ok _ state =>
    .ok (((state.providedSignatures.filter fun item => item.2).map Prod.fst).filter
      fun key => decide (key ∈ availableKeys))
  | .error error _ => .error error

/-- The exceptions `minimize_required_signatures` catches. -/
def ChainError.isMissingAuth (error : ChainError) : Bool :=
  error = .txMissingOwnerAuth || error = .txMissingActiveAuth ||
    error = .txMissingPostingAuth || error = .txMissingOtherAuth

/-- `flat_set::insert` of a key -/
def insertKey (key : PublicKey) : List PublicKey → List PublicKey
  | [] => [key]
  | head :: rest =>
    if key = head then head :: rest
    else if key.data < head.data then key :: head :: rest
    else head :: insertKey key rest

/-- The loop of `minimize_required_signatures`: a key stays erased if the others pass, and comes
back if an authority is missing without it. Any other exception is not caught. -/
def eraseUnneeded (limits : SignLimits) (required : RequiredAuthorities)
    (getters : AuthorityGetters) :
    List PublicKey → List PublicKey → Except ChainError (List PublicKey)
  | [], result => .ok result
  | key :: rest, result =>
    let without := result.filter fun other => decide (other ≠ key)
    match verifyAuthorityWithin limits required without getters with
    | .ok _ => eraseUnneeded limits required getters rest without
    | .error error =>
      if error.isMissingAuth then
        eraseUnneeded limits required getters rest (insertKey key without)
      else .error error

/-- `minimize_required_signatures` for the keys that have signed already. Only the recursion limit
is handed on to `get_required_signatures`. -/
def minimizeRequiredSignatures (limits : SignLimits) (required : RequiredAuthorities)
    (sigs availableKeys : List PublicKey) (getters : AuthorityGetters) :
    Except ChainError (List PublicKey) := do
  let keys ← getRequiredSignatures { SignLimits.standard with maxRecursion := limits.maxRecursion }
    required sigs availableKeys getters
  eraseUnneeded limits required getters keys keys

end Zattera
