/-
This file models the state a chain starts from, and the states it can reach: by
applying a block, or an accepted transaction on top of the head block as the
node does while it collects transactions for the next one.
-/

import Zattera.Chain.Blocks

namespace Zattera

open Program

/-! ### Genesis -/

/-- `ZATTERA_GENESIS_PUBLIC_KEY`; only which key it is matters. -/
def genesisPublicKey : PublicKey := ⟨1⟩

/-- `ZATTERA_LIQUID_INITIAL_SUPPLY` -/
def liquidInitialSupply : ShareType := 0

/-- `ZATTERA_DOLLAR_INITIAL_SUPPLY` -/
def dollarInitialSupply : ShareType := 0

/-- The fund every comment is rewarded from. -/
def genesisRewardFund : RewardFund where
  name := AccountName.ofChars ['p', 'o', 's', 't']
  rewardBalance := 0
  recentClaims := 0
  lastUpdate := genesisTime
  contentConstant := 2000000000000
  percentCurationRewards := 2500
  percentContentRewards := 10000
  authorRewardCurve := .linear
  curationRewardCurve := .squareRoot

def genesisAccounts (liquid dollar : ShareType) : Table AccountName Account Account.name where
  objects :=
    [Account.make 0 AccountName.null, Account.make 1 AccountName.temp,
      { Account.make 2 AccountName.genesis with liquidBalance := liquid, dollarBalance := dollar }]
  distinct := by
    change [AccountName.null, AccountName.temp, AccountName.genesis].Nodup
    decide

/-- Nobody can satisfy the authorities of the null account, anybody those of the temp account but
for posting. -/
def genesisAuthorities : Table AccountName AccountAuthority AccountAuthority.account where
  objects :=
    [⟨AccountName.null, ⟨1, [], []⟩, ⟨1, [], []⟩, ⟨1, [], []⟩, 0⟩,
      ⟨AccountName.temp, ⟨0, [], []⟩, ⟨0, [], []⟩, ⟨1, [], []⟩, 0⟩,
      ⟨AccountName.genesis, Authority.ofKey genesisPublicKey, Authority.ofKey genesisPublicKey,
        Authority.ofKey genesisPublicKey, 0⟩]
  distinct := by
    change [AccountName.null, AccountName.temp, AccountName.genesis].Nodup
    decide

def genesisWitness : Witness :=
  { Witness.make AccountName.genesis with
    signingKey := genesisPublicKey
    schedule := .timeshare }

def genesisProperties (liquid dollar : ShareType) : DynamicGlobalProperties :=
  { (default : DynamicGlobalProperties) with
    currentWitness := AccountName.genesis
    time := genesisTime
    recentSlotsFilled := BitVec.allOnes 128
    participationCount := 128
    currentLiquidSupply := liquid
    virtualLiquidSupply := liquid
    currentDollarSupply := dollar
    maximumBlockSize := 393216000 }

/-- `init_genesis` -/
def initGenesis (liquid dollar : ShareType) : ChainState where
  dgp := genesisProperties liquid dollar
  accounts := genesisAccounts liquid dollar
  accountAuthorities := genesisAuthorities
  witnesses := ⟨[genesisWitness], List.nodup_singleton _⟩
  witnessVotes := .empty
  witnessSchedule := { (default : WitnessSchedule) with
    currentShuffledWitnesses := AccountName.genesis :: List.replicate 20 default }
  feedHistory := default
  comments := .empty
  nextCommentId := 0
  commentContents := .empty
  commentVotes := .empty
  limitOrders := .empty
  convertRequests := .empty
  escrows := .empty
  savingsWithdraws := .empty
  withdrawRoutes := .empty
  vestingDelegations := .empty
  delegationExpirations := .empty
  nextExpirationId := 0
  ownerHistories := .empty
  nextHistoryId := 0
  recoveryRequests := .empty
  changeRecoveryRequests := .empty
  declineRequests := .empty
  rewardFunds := ⟨[genesisRewardFund], List.nodup_singleton _⟩
  transactions := .empty
  blockSummaries := []
  hardforks := default

/-- The state the chain plugin initialises a new chain with. -/
def genesis : ChainState := initGenesis liquidInitialSupply dollarInitialSupply

/-- A transaction of the genesis account. -/
def genesisTransaction (operations : List Operation) : SignedTransaction :=
  ⟨1, 0, 0, genesisTime + 60, operations, [genesisPublicKey]⟩

/-! ### Reachable states -/

/-- What takes the chain from one state to the next. -/
inductive ChainStep where
  | block (skip : SkipFlags) (producing : Bool) (next : SignedBlock)
  | transaction (skip : SkipFlags) (producing : Bool) (trx : SignedTransaction)

namespace ChainStep

/-- The program a step runs. -/
def run : ChainStep → Chain Unit
  | .block skip producing next => applyBlock skip producing next
  | .transaction skip producing trx => applyTransaction skip producing trx

/-- The operations of a step are validated; every other check may be skipped, as a node does with
blocks it has checked before. -/
def validated : ChainStep → Bool
  | .block skip _ _ => !skip.validate
  | .transaction skip _ _ => !skip.validate

/-- The operations of a step. -/
def operations : ChainStep → List Operation
  | .block _ _ next => next.transactions.flatMap SignedTransaction.operations
  | .transaction _ _ trx => trx.operations

end ChainStep

/-- The states a chain can reach by steps that all meet a condition in the state they start from. -/
inductive ReachableBy (condition : ChainState → ChainStep → Prop) (start : ChainState) :
    ChainState → Prop
  | start : ReachableBy condition start start
  | step {before after : ChainState} (earlier : ReachableBy condition start before)
      (step : ChainStep) (validated : step.validated) (holds : condition before step)
      (accepted : step.run before = .ok () after) : ReachableBy condition start after

/-- The states a chain can reach by accepted blocks and transactions. -/
def Reachable (start : ChainState) : ChainState → Prop := ReachableBy (fun _ _ => True) start

/-- A chain of blocks, the newest first, each applied to what the earlier ones have left. -/
inductive Chained (allowed : SkipFlags → Prop) (start : ChainState) :
    List SignedBlock → ChainState → Prop
  | start : Chained allowed start [] start
  | block {blocks : List SignedBlock} {before after : ChainState}
      (earlier : Chained allowed start blocks before) (skip : SkipFlags) (producing : Bool)
      (next : SignedBlock) (permitted : allowed skip)
      (applied : applyBlock skip producing next before = .ok () after) :
      Chained allowed start (next :: blocks) after

/-- Blocks that are applied one after the other make a chain. -/
theorem Chained.of_forM (allowed : SkipFlags → Prop) {start before after : ChainState}
    {skip : SkipFlags} {producing : Bool} {earlier blocks : List SignedBlock} {u : PUnit}
    (permitted : allowed skip) (chained : Chained allowed start earlier before)
    (run : forM blocks (applyBlock skip producing) before = .ok u after) :
    Chained allowed start (blocks.reverse ++ earlier) after := by
  induction blocks generalizing earlier before with
  | nil =>
    obtain ⟨_, rfl⟩ := pure_eq_ok.mp run
    exact chained
  | cons block rest inductionHypothesis =>
    rw [List.forM_cons] at run
    obtain ⟨_, middle, applied, run⟩ := bind_eq_ok.mp run
    rw [List.reverse_cons, List.append_assoc]
    exact inductionHypothesis (chained.block skip producing block permitted applied) run

/-- An invariant of the start that every step keeps holds in every state reached. -/
theorem ReachableBy.invariant {condition : ChainState → ChainStep → Prop} {start : ChainState}
    {Inv : ChainState → Prop} (base : Inv start)
    (keep : ∀ before after step, Inv before → step.validated → condition before step →
      step.run before = .ok () after → Inv after)
    {state : ChainState} (reached : ReachableBy condition start state) : Inv state := by
  induction reached with
  | start => exact base
  | step _ step validated holds accepted inductionHypothesis =>
    exact keep _ _ step inductionHypothesis validated holds accepted

end Zattera
