/-
This file models the operations of the protocol: their fields, the stateless
checks of `validate`, and the authorities each of them requires. Fields that no
modelled function reads (memo keys, the content of custom data) are left out.
-/

import Zattera.Protocol.Asset
import Zattera.Protocol.SignState

namespace Zattera

open Program

/-! ### Fields -/

structure AccountCreateOperation where
  fee : Asset
  creator : AccountName
  newAccountName : AccountName
  owner : Authority
  active : Authority
  posting : Authority
  jsonMetadata : JsonText
  deriving DecidableEq, Repr

structure AccountCreateWithDelegationOperation where
  fee : Asset
  delegation : Asset
  creator : AccountName
  newAccountName : AccountName
  owner : Authority
  active : Authority
  posting : Authority
  jsonMetadata : JsonText
  deriving DecidableEq, Repr

structure AccountUpdateOperation where
  account : AccountName
  owner : Option Authority
  active : Option Authority
  posting : Option Authority
  jsonMetadata : JsonText
  deriving DecidableEq, Repr

structure CommentOperation where
  parentAuthor : AccountName
  parentPermlink : Text
  author : AccountName
  permlink : Text
  title : Text
  body : Text
  jsonMetadata : JsonText
  deriving DecidableEq, Repr

structure BeneficiaryRoute where
  account : AccountName
  weight : Nat
  deriving DecidableEq, Repr

/-- `extensions` holds at most one entry, the payout beneficiaries. -/
structure CommentOptionsOperation where
  author : AccountName
  permlink : Text
  maxAcceptedPayout : Asset
  percentZatteraDollars : Nat
  allowVotes : Bool
  allowCurationRewards : Bool
  extensions : Option (List BeneficiaryRoute)
  deriving DecidableEq, Repr

structure ClaimAccountOperation where
  creator : AccountName
  fee : Asset
  extensionCount : Nat
  deriving DecidableEq, Repr

structure CreateClaimedAccountOperation where
  creator : AccountName
  newAccountName : AccountName
  owner : Authority
  active : Authority
  posting : Authority
  jsonMetadata : JsonText
  extensionCount : Nat
  deriving DecidableEq, Repr

structure DeleteCommentOperation where
  author : AccountName
  permlink : Text
  deriving DecidableEq, Repr

structure VoteOperation where
  voter : AccountName
  author : AccountName
  permlink : Text
  weight : Int
  deriving DecidableEq, Repr

structure TransferOperation where
  fromAccount : AccountName
  toAccount : AccountName
  amount : Asset
  memo : Text
  deriving DecidableEq, Repr

structure EscrowTransferOperation where
  fromAccount : AccountName
  toAccount : AccountName
  agent : AccountName
  escrowId : Nat
  dollarAmount : Asset
  liquidAmount : Asset
  fee : Asset
  ratificationDeadline : TimePointSec
  escrowExpiration : TimePointSec
  jsonMeta : JsonText
  deriving DecidableEq, Repr

structure EscrowApproveOperation where
  fromAccount : AccountName
  toAccount : AccountName
  agent : AccountName
  who : AccountName
  escrowId : Nat
  approve : Bool
  deriving DecidableEq, Repr

structure EscrowDisputeOperation where
  fromAccount : AccountName
  toAccount : AccountName
  agent : AccountName
  who : AccountName
  escrowId : Nat
  deriving DecidableEq, Repr

structure EscrowReleaseOperation where
  fromAccount : AccountName
  toAccount : AccountName
  agent : AccountName
  who : AccountName
  receiver : AccountName
  escrowId : Nat
  dollarAmount : Asset
  liquidAmount : Asset
  deriving DecidableEq, Repr

structure TransferToVestingOperation where
  fromAccount : AccountName
  toAccount : AccountName
  amount : Asset
  deriving DecidableEq, Repr

structure WithdrawVestingOperation where
  account : AccountName
  vestingShares : Asset
  deriving DecidableEq, Repr

structure SetWithdrawVestingRouteOperation where
  fromAccount : AccountName
  toAccount : AccountName
  percent : Nat
  autoVest : Bool
  deriving DecidableEq, Repr

/-- `legacy_chain_properties`; the fee is an amount of the liquid token, and `isCanon` says whether
its symbol was serialised in the canonical way. -/
structure LegacyChainProperties where
  accountCreationFee : ShareType
  isCanon : Bool
  maximumBlockSize : Nat
  dollarInterestRate : Nat
  deriving DecidableEq, Repr

structure WitnessUpdateOperation where
  owner : AccountName
  url : Text
  blockSigningKey : PublicKey
  props : LegacyChainProperties
  fee : Asset
  deriving DecidableEq, Repr

/-- The properties of `witness_set_properties_operation` after unpacking; an operation whose packed
properties do not unpack is rejected before it reaches this model. -/
structure WitnessSetPropertiesOperation where
  owner : AccountName
  key : Option PublicKey
  accountCreationFee : Option Asset
  maximumBlockSize : Option Nat
  dollarInterestRate : Option Nat
  newSigningKey : Option PublicKey
  dollarExchangeRate : Option Price
  url : Option Text
  accountSubsidyLimit : Option Nat
  deriving DecidableEq, Repr

structure AccountWitnessVoteOperation where
  account : AccountName
  witness : AccountName
  approve : Bool
  deriving DecidableEq, Repr

structure AccountWitnessProxyOperation where
  account : AccountName
  proxy : AccountName
  deriving DecidableEq, Repr

structure CustomOperation where
  requiredAuths : List AccountName
  dataSize : Nat
  deriving DecidableEq, Repr

structure CustomJsonOperation where
  requiredAuths : List AccountName
  requiredPostingAuths : List AccountName
  id : Text
  json : JsonText
  deriving DecidableEq, Repr

structure CustomBinaryOperation where
  requiredOwnerAuths : List AccountName
  requiredActiveAuths : List AccountName
  requiredPostingAuths : List AccountName
  requiredAuths : List Authority
  id : Text
  dataSize : Nat
  deriving DecidableEq, Repr

structure FeedPublishOperation where
  publisher : AccountName
  exchangeRate : Price
  deriving DecidableEq, Repr

structure ConvertOperation where
  owner : AccountName
  requestid : Nat
  amount : Asset
  deriving DecidableEq, Repr

structure LimitOrderCreateOperation where
  owner : AccountName
  orderid : Nat
  amountToSell : Asset
  minToReceive : Asset
  fillOrKill : Bool
  expiration : TimePointSec
  deriving DecidableEq, Repr

structure LimitOrderCreate2Operation where
  owner : AccountName
  orderid : Nat
  amountToSell : Asset
  fillOrKill : Bool
  exchangeRate : Price
  expiration : TimePointSec
  deriving DecidableEq, Repr

structure LimitOrderCancelOperation where
  owner : AccountName
  orderid : Nat
  deriving DecidableEq, Repr

/-- A signed header as `report_over_production_operation` carries it. -/
structure ReportedHeader where
  witness : AccountName
  timestamp : TimePointSec
  signee : PublicKey
  id : Nat
  deriving DecidableEq, Repr

structure ReportOverProductionOperation where
  reporter : AccountName
  firstBlock : ReportedHeader
  secondBlock : ReportedHeader
  deriving DecidableEq, Repr

structure RequestAccountRecoveryOperation where
  recoveryAccount : AccountName
  accountToRecover : AccountName
  newOwnerAuthority : Authority
  deriving DecidableEq, Repr

structure RecoverAccountOperation where
  accountToRecover : AccountName
  newOwnerAuthority : Authority
  recentOwnerAuthority : Authority
  deriving DecidableEq, Repr

structure ResetAccountOperation where
  resetAccount : AccountName
  accountToReset : AccountName
  newOwnerAuthority : Authority
  deriving DecidableEq, Repr

structure SetResetAccountOperation where
  account : AccountName
  currentResetAccount : AccountName
  resetAccount : AccountName
  deriving DecidableEq, Repr

structure ChangeRecoveryAccountOperation where
  accountToRecover : AccountName
  newRecoveryAccount : AccountName
  deriving DecidableEq, Repr

structure TransferToSavingsOperation where
  fromAccount : AccountName
  toAccount : AccountName
  amount : Asset
  memo : Text
  deriving DecidableEq, Repr

structure TransferFromSavingsOperation where
  fromAccount : AccountName
  requestId : Nat
  toAccount : AccountName
  amount : Asset
  memo : Text
  deriving DecidableEq, Repr

structure CancelTransferFromSavingsOperation where
  fromAccount : AccountName
  requestId : Nat
  deriving DecidableEq, Repr

structure DeclineVotingRightsOperation where
  account : AccountName
  decline : Bool
  deriving DecidableEq, Repr

structure ClaimRewardBalanceOperation where
  account : AccountName
  rewardLiquids : Asset
  rewardDollars : Asset
  rewardVests : Asset
  deriving DecidableEq, Repr

structure DelegateVestingSharesOperation where
  delegator : AccountName
  delegatee : AccountName
  vestingShares : Asset
  deriving DecidableEq, Repr

/-- `operation`. A virtual operation is never accepted in a transaction: `base_operation` has it
fail validation. -/
inductive Operation where
  | vote (op : VoteOperation)
  | comment (op : CommentOperation)
  | transfer (op : TransferOperation)
  | transferToVesting (op : TransferToVestingOperation)
  | withdrawVesting (op : WithdrawVestingOperation)
  | limitOrderCreate (op : LimitOrderCreateOperation)
  | limitOrderCancel (op : LimitOrderCancelOperation)
  | feedPublish (op : FeedPublishOperation)
  | convert (op : ConvertOperation)
  | accountCreate (op : AccountCreateOperation)
  | accountUpdate (op : AccountUpdateOperation)
  | witnessUpdate (op : WitnessUpdateOperation)
  | accountWitnessVote (op : AccountWitnessVoteOperation)
  | accountWitnessProxy (op : AccountWitnessProxyOperation)
  | custom (op : CustomOperation)
  | reportOverProduction (op : ReportOverProductionOperation)
  | deleteComment (op : DeleteCommentOperation)
  | customJson (op : CustomJsonOperation)
  | commentOptions (op : CommentOptionsOperation)
  | setWithdrawVestingRoute (op : SetWithdrawVestingRouteOperation)
  | limitOrderCreate2 (op : LimitOrderCreate2Operation)
  | claimAccount (op : ClaimAccountOperation)
  | createClaimedAccount (op : CreateClaimedAccountOperation)
  | requestAccountRecovery (op : RequestAccountRecoveryOperation)
  | recoverAccount (op : RecoverAccountOperation)
  | changeRecoveryAccount (op : ChangeRecoveryAccountOperation)
  | escrowTransfer (op : EscrowTransferOperation)
  | escrowDispute (op : EscrowDisputeOperation)
  | escrowRelease (op : EscrowReleaseOperation)
  | escrowApprove (op : EscrowApproveOperation)
  | transferToSavings (op : TransferToSavingsOperation)
  | transferFromSavings (op : TransferFromSavingsOperation)
  | cancelTransferFromSavings (op : CancelTransferFromSavingsOperation)
  | customBinary (op : CustomBinaryOperation)
  | declineVotingRights (op : DeclineVotingRightsOperation)
  | resetAccount (op : ResetAccountOperation)
  | setResetAccount (op : SetResetAccountOperation)
  | claimRewardBalance (op : ClaimRewardBalanceOperation)
  | delegateVestingShares (op : DelegateVestingSharesOperation)
  | accountCreateWithDelegation (op : AccountCreateWithDelegationOperation)
  | witnessSetProperties (op : WitnessSetPropertiesOperation)
  | virtualOperation
  deriving DecidableEq, Repr

end Zattera
