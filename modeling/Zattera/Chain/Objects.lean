/-
This file models the objects the chain keeps: accounts, witnesses, comments,
votes, orders, escrows and the requests and schedules around them, and the state
made of them. An asset field whose token never changes is modelled by its amount
alone; a field that no modelled function reads is left out. Objects refer to
accounts by name, as the source does in all but one place: a comment vote names
its voter by account id, so here it keeps both.
-/

import Zattera.Lib.Table
import Zattera.Protocol.Transaction

namespace Zattera

/-! ### Accounts -/

/-- `account_object` -/
structure Account where
  /-- The number of accounts created before it. -/
  id : Nat
  name : AccountName
  /-- The empty name when the account votes for witnesses itself. -/
  proxy : AccountName
  lastAccountUpdate : TimePointSec
  created : TimePointSec
  mined : Bool
  recoveryAccount : AccountName
  lastAccountRecovery : TimePointSec
  postCount : Nat
  canVote : Bool
  votingPower : Nat
  lastVoteTime : TimePointSec
  liquidBalance : ShareType
  savingsLiquidBalance : ShareType
  dollarBalance : ShareType
  dollarSeconds : UInt128
  dollarSecondsLastUpdate : TimePointSec
  dollarLastInterestPayment : TimePointSec
  savingsDollarBalance : ShareType
  savingsDollarSeconds : UInt128
  savingsDollarSecondsLastUpdate : TimePointSec
  savingsDollarLastInterestPayment : TimePointSec
  savingsWithdrawRequests : Nat
  rewardDollarBalance : ShareType
  rewardLiquidBalance : ShareType
  rewardVestingShareBalance : ShareType
  rewardVestingLiquidBalance : ShareType
  curationRewards : ShareType
  postingRewards : ShareType
  vestingShareBalance : ShareType
  delegatedVestingShareBalance : ShareType
  receivedVestingShareBalance : ShareType
  vestingWithdrawRate : ShareType
  nextVestingWithdrawal : TimePointSec
  withdrawn : ShareType
  toWithdraw : ShareType
  withdrawRoutes : Nat
  /-- The votes proxied to the account from one to four steps away. -/
  proxiedVsfVotes : Vector ShareType 4
  witnessesVotedFor : Nat
  lastPost : TimePointSec
  lastRootPost : TimePointSec
  pendingClaimedAccounts : ShareType
  deriving DecidableEq

namespace Account

/-- A new account, with the defaults of `account_object`. -/
def make (id : Nat) (name : AccountName) : Account where
  id := id
  name := name
  proxy := default
  lastAccountUpdate := 0
  created := 0
  mined := true
  recoveryAccount := default
  lastAccountRecovery := 0
  postCount := 0
  canVote := true
  votingPower := 10000
  lastVoteTime := 0
  liquidBalance := 0
  savingsLiquidBalance := 0
  dollarBalance := 0
  dollarSeconds := 0
  dollarSecondsLastUpdate := 0
  dollarLastInterestPayment := 0
  savingsDollarBalance := 0
  savingsDollarSeconds := 0
  savingsDollarSecondsLastUpdate := 0
  savingsDollarLastInterestPayment := 0
  savingsWithdrawRequests := 0
  rewardDollarBalance := 0
  rewardLiquidBalance := 0
  rewardVestingShareBalance := 0
  rewardVestingLiquidBalance := 0
  curationRewards := 0
  postingRewards := 0
  vestingShareBalance := 0
  delegatedVestingShareBalance := 0
  receivedVestingShareBalance := 0
  vestingWithdrawRate := 0
  nextVestingWithdrawal := TimePointSec.maximum
  withdrawn := 0
  toWithdraw := 0
  withdrawRoutes := 0
  proxiedVsfVotes := Vector.replicate 4 0
  witnessesVotedFor := 0
  lastPost := 0
  lastRootPost := TimePointSec.min
  pendingClaimedAccounts := 0

/-- The sum `std::accumulate` forms over the proxied votes, with overflow checked at each step. -/
def accumulateProxied (account : Account) (initial : ShareType) : Except ChainError ShareType := do
  let first ← initial.add account.proxiedVsfVotes[0]
  let second ← first.add account.proxiedVsfVotes[1]
  let third ← second.add account.proxiedVsfVotes[2]
  third.add account.proxiedVsfVotes[3]

/-- `witness_vote_weight` -/
def witnessVoteWeight (account : Account) : Except ChainError ShareType :=
  account.accumulateProxied account.vestingShareBalance

/-- `proxied_vsf_votes_total` -/
def proxiedVsfVotesTotal (account : Account) : Except ChainError ShareType :=
  account.accumulateProxied 0

end Account

/-- `account_authority_object` -/
structure AccountAuthority where
  account : AccountName
  owner : Authority
  active : Authority
  posting : Authority
  lastOwnerUpdate : TimePointSec
  deriving DecidableEq

/-- `vesting_delegation_object` -/
structure VestingDelegation where
  delegator : AccountName
  delegatee : AccountName
  vestingShares : ShareType
  minDelegationTime : TimePointSec
  deriving DecidableEq

/-- `vesting_delegation_expiration_object` -/
structure VestingDelegationExpiration where
  id : Nat
  delegator : AccountName
  vestingShares : ShareType
  expiration : TimePointSec
  deriving DecidableEq

/-- `owner_authority_history_object` -/
structure OwnerAuthorityHistory where
  id : Nat
  account : AccountName
  previousOwnerAuthority : Authority
  lastValidTime : TimePointSec
  deriving DecidableEq

/-- `account_recovery_request_object` -/
structure AccountRecoveryRequest where
  accountToRecover : AccountName
  newOwnerAuthority : Authority
  expires : TimePointSec
  deriving DecidableEq

/-- `change_recovery_account_request_object` -/
structure ChangeRecoveryAccountRequest where
  accountToRecover : AccountName
  recoveryAccount : AccountName
  effectiveOn : TimePointSec
  deriving DecidableEq

/-- `decline_voting_rights_request_object` -/
structure DeclineVotingRightsRequest where
  account : AccountName
  effectiveDate : TimePointSec
  deriving DecidableEq

/-! ### Witnesses -/

/-- `chain_properties` -/
structure ChainProperties where
  accountCreationFee : ShareType
  maximumBlockSize : Nat
  dollarInterestRate : Nat
  accountSubsidyLimit : Nat
  deriving DecidableEq

instance : Inhabited ChainProperties := ⟨⟨0, 131072, 1000, 0⟩⟩

/-- `witness_schedule_type` -/
inductive WitnessScheduleType where
  | top20
  | timeshare
  | none
  deriving DecidableEq, Repr

/-- `witness_object` -/
structure Witness where
  owner : AccountName
  totalMissed : Nat
  lastAslot : Nat
  lastConfirmedBlockNum : Nat
  signingKey : PublicKey
  props : ChainProperties
  dollarExchangeRate : Price
  lastDollarExchangeUpdate : TimePointSec
  votes : ShareType
  schedule : WitnessScheduleType
  virtualLastUpdate : UInt128
  virtualPosition : UInt128
  virtualScheduledTime : UInt128
  runningVersion : Version
  hardforkVersionVote : Version
  hardforkTimeVote : TimePointSec
  deriving DecidableEq

/-- `ZATTERA_GENESIS_TIME` -/
def genesisTime : TimePointSec := 1765238400

/-- A new witness, with the defaults of `witness_object`. -/
def Witness.make (owner : AccountName) : Witness where
  owner := owner
  totalMissed := 0
  lastAslot := 0
  lastConfirmedBlockNum := 0
  signingKey := default
  props := default
  dollarExchangeRate := default
  lastDollarExchangeUpdate := 0
  votes := 0
  schedule := .none
  virtualLastUpdate := 0
  virtualPosition := 0
  virtualScheduledTime := BitVec.allOnes 128
  runningVersion := 0
  hardforkVersionVote := 0
  hardforkTimeVote := genesisTime

/-- `witness_vote_object` -/
structure WitnessVote where
  account : AccountName
  witness : AccountName
  deriving DecidableEq

/-- `witness_schedule_object`; the array of shuffled witnesses has `ZATTERA_MAX_WITNESSES` places. -/
structure WitnessSchedule where
  currentVirtualTime : UInt128
  nextShuffleBlockNum : Nat
  currentShuffledWitnesses : List AccountName
  numScheduledWitnesses : Nat
  top20Weight : Nat
  timeshareWeight : Nat
  witnessPayNormalizationFactor : Nat
  medianProps : ChainProperties
  majorityVersion : Version
  maxVotedWitnesses : Nat
  hardforkRequiredWitnesses : Nat
  deriving DecidableEq

instance : Inhabited WitnessSchedule :=
  ⟨⟨0, 1, List.replicate 21 default, 1, 1, 5, 25, default, 0, 20, 17⟩⟩

/-- The witness at a place of the shuffled array. -/
def WitnessSchedule.shuffledWitness (schedule : WitnessSchedule) (place : Nat) : AccountName :=
  schedule.currentShuffledWitnesses.getD place default

/-! ### Comments -/

/-- The part of a string before its first zero byte, which `strcmp` compares. -/
def cString (text : Text) : Text := text.takeWhile (· ≠ 0)

/-- `comment_object` -/
structure Comment where
  id : Nat
  parentAuthor : AccountName
  parentPermlink : Text
  author : AccountName
  permlink : Text
  created : TimePointSec
  lastPayout : TimePointSec
  depth : Nat
  children : Nat
  netRshares : ShareType
  absRshares : ShareType
  voteRshares : ShareType
  childrenAbsRshares : ShareType
  cashoutTime : TimePointSec
  maxCashoutTime : TimePointSec
  totalVoteWeight : Nat
  rewardWeight : Nat
  totalPayoutValue : ShareType
  curatorPayoutValue : ShareType
  beneficiaryPayoutValue : ShareType
  authorRewards : ShareType
  netVotes : Int
  rootComment : Nat
  maxAcceptedPayout : ShareType
  percentZatteraDollars : Nat
  allowReplies : Bool
  allowVotes : Bool
  allowCurationRewards : Bool
  beneficiaries : List BeneficiaryRoute
  deriving DecidableEq

/-- The key of a comment: its author, and its permlink as `strcmp` sees it. -/
def Comment.key (comment : Comment) : AccountName × Text :=
  (comment.author, cString comment.permlink)

/-- `comment_content_object`; the body, which an edit may patch, is left out. -/
structure CommentContent where
  comment : Nat
  title : Text
  jsonMetadata : Text
  deriving DecidableEq

/-- `comment_vote_object`; `voterId` is the id of the account `voter`. -/
structure CommentVote where
  voter : AccountName
  voterId : Nat
  comment : Nat
  weight : Nat
  rshares : Int64
  votePercent : Int
  lastUpdate : TimePointSec
  numChanges : Int
  deriving DecidableEq

/-! ### Requests, orders and funds -/

/-- `convert_request_object` -/
structure ConvertRequest where
  owner : AccountName
  requestid : Nat
  amount : Asset
  conversionDate : TimePointSec
  deriving DecidableEq

/-- `escrow_object` -/
structure Escrow where
  escrowId : Nat
  fromAccount : AccountName
  toAccount : AccountName
  agent : AccountName
  ratificationDeadline : TimePointSec
  escrowExpiration : TimePointSec
  dollarBalance : ShareType
  liquidBalance : ShareType
  pendingFee : Asset
  toApproved : Bool
  agentApproved : Bool
  disputed : Bool
  deriving DecidableEq

/-- `is_approved` -/
def Escrow.isApproved (escrow : Escrow) : Bool := escrow.toApproved && escrow.agentApproved

/-- `savings_withdraw_object` -/
structure SavingsWithdraw where
  fromAccount : AccountName
  toAccount : AccountName
  requestId : Nat
  amount : Asset
  complete : TimePointSec
  deriving DecidableEq

/-- `feed_history_object` -/
structure FeedHistory where
  currentMedianHistory : Price
  priceHistory : List Price
  deriving DecidableEq

instance : Inhabited FeedHistory := ⟨⟨default, []⟩⟩

/-- `limit_order_object` -/
structure LimitOrder where
  created : TimePointSec
  expiration : TimePointSec
  seller : AccountName
  orderid : Nat
  forSale : ShareType
  sellPrice : Price
  deriving DecidableEq

namespace LimitOrder

/-- `amount_for_sale` -/
def amountForSale (order : LimitOrder) : Asset := ⟨order.forSale, order.sellPrice.base.symbol⟩

/-- `amount_to_receive` -/
def amountToReceive (order : LimitOrder) : Except ChainError Asset :=
  order.amountForSale.mulPrice order.sellPrice

end LimitOrder

/-- `withdraw_vesting_route_object` -/
structure WithdrawVestingRoute where
  fromAccount : AccountName
  toAccount : AccountName
  percent : Nat
  autoVest : Bool
  deriving DecidableEq

/-- `curve_id` -/
inductive CurveId where
  | quadratic
  | quadraticCuration
  | linear
  | squareRoot
  deriving DecidableEq, Repr

/-- `reward_fund_object` -/
structure RewardFund where
  name : AccountName
  rewardBalance : ShareType
  recentClaims : UInt128
  lastUpdate : TimePointSec
  contentConstant : UInt128
  percentCurationRewards : Nat
  percentContentRewards : Nat
  authorRewardCurve : CurveId
  curationRewardCurve : CurveId
  deriving DecidableEq

/-- `transaction_object` -/
structure TransactionObject where
  trxId : TransactionId
  expiration : TimePointSec
  deriving DecidableEq

/-! ### The state -/

/-- `dynamic_global_property_object` -/
structure DynamicGlobalProperties where
  headBlockNumber : Nat
  headBlockId : BlockId
  time : TimePointSec
  currentWitness : AccountName
  virtualLiquidSupply : ShareType
  currentLiquidSupply : ShareType
  currentDollarSupply : ShareType
  totalVestingFundLiquid : ShareType
  totalVestingShares : ShareType
  totalRewardFundLiquid : ShareType
  pendingRewardedVestingShares : ShareType
  pendingRewardedVestingLiquid : ShareType
  dollarInterestRate : Nat
  dollarPrintRate : Nat
  maximumBlockSize : Nat
  currentAslot : Nat
  recentSlotsFilled : UInt128
  participationCount : Nat
  lastIrreversibleBlockNum : Nat
  votePowerReserveRate : Nat
  delegationReturnPeriod : Nat
  deriving DecidableEq

instance : Inhabited DynamicGlobalProperties :=
  ⟨⟨0, default, 0, default, 0, 0, 0, 0, 0, 0, 0, 0, 0, 10000, 0, 0, 0, 0, 0, 10, 864000⟩⟩

/-- `hardfork_property_object`. The build knows of no hardfork, so none is ever processed. -/
structure HardforkProperties where
  currentHardforkVersion : Version
  nextHardfork : Version
  nextHardforkTime : TimePointSec
  deriving DecidableEq

instance : Inhabited HardforkProperties := ⟨⟨0, 0, 0⟩⟩

/-- Everything the chain keeps between two operations. Block summaries are stored only for the
places that have been written; the others hold the default id. -/
structure ChainState where
  dgp : DynamicGlobalProperties
  accounts : Table AccountName Account Account.name
  accountAuthorities : Table AccountName AccountAuthority AccountAuthority.account
  witnesses : Table AccountName Witness Witness.owner
  witnessVotes : Table WitnessVote WitnessVote id
  witnessSchedule : WitnessSchedule
  feedHistory : FeedHistory
  comments : Table (AccountName × Text) Comment Comment.key
  nextCommentId : Nat
  commentContents : Table Nat CommentContent CommentContent.comment
  commentVotes : Table (Nat × AccountName) CommentVote fun vote => (vote.comment, vote.voter)
  limitOrders : Table (AccountName × Nat) LimitOrder fun order => (order.seller, order.orderid)
  convertRequests :
    Table (AccountName × Nat) ConvertRequest fun request => (request.owner, request.requestid)
  escrows : Table (AccountName × Nat) Escrow fun escrow => (escrow.fromAccount, escrow.escrowId)
  savingsWithdraws :
    Table (AccountName × Nat) SavingsWithdraw fun withdraw =>
      (withdraw.fromAccount, withdraw.requestId)
  withdrawRoutes :
    Table (AccountName × AccountName) WithdrawVestingRoute fun route =>
      (route.fromAccount, route.toAccount)
  vestingDelegations :
    Table (AccountName × AccountName) VestingDelegation fun delegation =>
      (delegation.delegator, delegation.delegatee)
  delegationExpirations : Table Nat VestingDelegationExpiration VestingDelegationExpiration.id
  nextExpirationId : Nat
  ownerHistories : Table Nat OwnerAuthorityHistory OwnerAuthorityHistory.id
  nextHistoryId : Nat
  recoveryRequests :
    Table AccountName AccountRecoveryRequest AccountRecoveryRequest.accountToRecover
  changeRecoveryRequests :
    Table AccountName ChangeRecoveryAccountRequest ChangeRecoveryAccountRequest.accountToRecover
  declineRequests : Table AccountName DeclineVotingRightsRequest DeclineVotingRightsRequest.account
  rewardFunds : Table AccountName RewardFund RewardFund.name
  transactions : Table TransactionId TransactionObject TransactionObject.trxId
  blockSummaries : List (Nat × BlockId)
  hardforks : HardforkProperties

/-- A step of the chain: it may stop with an error, and then keeps the state it had reached. -/
abbrev Chain := EStateM ChainError ChainState

end Zattera
