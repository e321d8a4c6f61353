/-
This file models `validate` of every operation, the checks made before an
operation meets the state, and the authorities each operation requires. The
checks stand in the order of the source, so that the first one that fails
decides the message.
-/

import Zattera.Protocol.Operations

namespace Zattera

open Program

/-- `is_asset_type` -/
def isAssetType (asset : Asset) (symbol : AssetSymbol) : Bool := decide (asset.symbol = symbol)

/-! ### Validation -/

def AccountCreateOperation.validate (op : AccountCreateOperation) : Except ChainError Unit := do
  validateAccountName op.newAccountName
  ensure (isAssetType op.fee .liquid) (.assertion "Account creation fee must be ZTR")
  op.owner.validate
  op.active.validate
  op.jsonMetadata.validate
  ensure (0 ≤ op.fee.amount) (.assertion "Account creation fee cannot be negative")

def AccountCreateWithDelegationOperation.validate (op : AccountCreateWithDelegationOperation) :
    Except ChainError Unit := do
  validateAccountName op.newAccountName
  validateAccountName op.creator
  ensure (isAssetType op.fee .liquid) (.assertion "Account creation fee must be ZTR")
  ensure (isAssetType op.delegation .vests) (.assertion "Delegation must be VESTS")
  op.owner.validate
  op.active.validate
  op.posting.validate
  op.jsonMetadata.validate
  ensure (0 ≤ op.fee.amount) (.assertion "Account creation fee cannot be negative")
  ensure (0 ≤ op.delegation.amount) (.assertion "Delegation cannot be negative")

def AccountUpdateOperation.validate (op : AccountUpdateOperation) : Except ChainError Unit := do
  validateAccountName op.account
  op.jsonMetadata.validate

def CommentOperation.validate (op : CommentOperation) : Except ChainError Unit := do
  ensure (op.title.length < 256) (.assertion "Title larger than size limit")
  ensure (isUtf8 op.title) (.assertion "Title not formatted in UTF8")
  ensure (0 < op.body.length) (.assertion "Body is empty")
  ensure (isUtf8 op.body) (.assertion "Body not formatted in UTF8")
  if op.parentAuthor.size ≠ 0 then validateAccountName op.parentAuthor else .ok ()
  validateAccountName op.author
  validatePermlink op.parentPermlink
  validatePermlink op.permlink
  ensure (op.jsonMetadata.text = [] ∨ op.jsonMetadata.isValid)
    (.assertion "JSON Metadata not valid JSON")

/-- The checks of one beneficiary; `sum` is the weight given out before it. -/
def BeneficiaryRoute.validate (route : BeneficiaryRoute) (sum : Nat) : Except ChainError Nat := do
  validateAccountName route.account
  ensure (route.weight ≤ 10000)
    (.assertion "Cannot allocate more than 100% of rewards to one account")
  ensure (sum + route.weight ≤ 10000)
    (.assertion "Cannot allocate more than 100% of rewards to a comment")
  return sum + route.weight

/-- The loop over the beneficiaries after the first one. -/
def validateBeneficiariesAfter (previous : BeneficiaryRoute) (sum : Nat) :
    List BeneficiaryRoute → Except ChainError Unit
  | [] => .ok ()
  | route :: rest => do
    let sum ← route.validate sum
    ensure (previous.account < route.account)
      (.assertion "Benficiaries must be specified in sorted order (account ascending)")
    validateBeneficiariesAfter route sum rest

/-- `comment_payout_beneficiaries::validate` -/
def validateBeneficiaries : List BeneficiaryRoute → Except ChainError Unit
  | [] => .error (.assertion "Must specify at least one beneficiary")
  | first :: rest => do
    ensure ((first :: rest).length < 128)
      (.assertion "Cannot specify more than 127 beneficiaries.")
    let sum ← first.validate 0
    validateBeneficiariesAfter first sum rest

def CommentOptionsOperation.validate (op : CommentOptionsOperation) : Except ChainError Unit := do
  validateAccountName op.author
  ensure (op.percentZatteraDollars ≤ 10000) (.assertion "Percent cannot exceed 100%")
  ensure (op.maxAcceptedPayout.symbol = .dollar)
    (.assertion "Max accepted payout must be in ZBD")
  ensure (0 ≤ op.maxAcceptedPayout.amount) (.assertion "Cannot accept less than 0 payout")
  validatePermlink op.permlink
  match op.extensions with
  | none => .ok ()
  | some beneficiaries => validateBeneficiaries beneficiaries

def DeleteCommentOperation.validate (op : DeleteCommentOperation) : Except ChainError Unit := do
  validatePermlink op.permlink
  validateAccountName op.author

def ClaimAccountOperation.validate (op : ClaimAccountOperation) : Except ChainError Unit := do
  validateAccountName op.creator
  ensure (isAssetType op.fee .liquid) (.assertion "Account creation fee must be ZTR")
  ensure (0 ≤ op.fee.amount) (.assertion "Account creation fee cannot be negative")
  ensure (op.extensionCount = 0)
    (.assertion "There are no extensions for claim_account_operation.")

def CreateClaimedAccountOperation.validate (op : CreateClaimedAccountOperation) :
    Except ChainError Unit := do
  validateAccountName op.creator
  validateAccountName op.newAccountName
  op.owner.validate
  op.active.validate
  op.posting.validate
  validateAuthSize op.owner
  validateAuthSize op.active
  validateAuthSize op.posting
  op.jsonMetadata.validate
  ensure (op.extensionCount = 0)
    (.assertion "There are no extensions for create_claimed_account_operation.")

def VoteOperation.validate (op : VoteOperation) : Except ChainError Unit := do
  validateAccountName op.voter
  validateAccountName op.author
  ensure (op.weight.natAbs ≤ 10000) (.assertion "Weight is not a ZATTERA percentage")
  validatePermlink op.permlink

/-- The checks of a memo, shared by the operations that carry one. -/
def validateMemo (memo : Text) : Except ChainError Unit := do
  ensure (memo.length < 2048) (.assertion "Memo is too large")
  ensure (isUtf8 memo) (.assertion "Memo is not UTF8")

def TransferOperation.validate (op : TransferOperation) : Except ChainError Unit := do
  validateAccountName op.fromAccount
  validateAccountName op.toAccount
  ensure (op.amount.symbol ≠ .vests)
    (.assertion "transferring of Zattera Power (VESTS) is not allowed.")
  ensure (0 < op.amount.amount)
    (.assertion "Cannot transfer a negative amount (aka: stealing)")
  validateMemo op.memo

def TransferToVestingOperation.validate (op : TransferToVestingOperation) :
    Except ChainError Unit := do
  validateAccountName op.fromAccount
  ensure (op.amount.symbol = .liquid) (.assertion "Amount must be ZTR")
  if op.toAccount ≠ default then validateAccountName op.toAccount else .ok ()
  ensure (0 < op.amount.amount) (.assertion "Must transfer a nonzero amount")

def WithdrawVestingOperation.validate (op : WithdrawVestingOperation) :
    Except ChainError Unit := do
  validateAccountName op.account
  ensure (isAssetType op.vestingShares .vests) (.assertion "Amount must be VESTS")

def SetWithdrawVestingRouteOperation.validate (op : SetWithdrawVestingRouteOperation) :
    Except ChainError Unit := do
  validateAccountName op.fromAccount
  validateAccountName op.toAccount
  ensure (op.percent ≤ 10000) (.assertion "Percent must be valid zattera percent")

/-- `legacy_chain_properties::validate< false >` -/
def LegacyChainProperties.validate (props : LegacyChainProperties) : Except ChainError Unit := do
  ensure (0 ≤ props.accountCreationFee)
    (.assertion "account_creation_fee.amount >= ZATTERA_MIN_ACCOUNT_CREATION_FEE")
  ensure (65536 ≤ props.maximumBlockSize)
    (.assertion "maximum_block_size >= ZATTERA_MIN_BLOCK_SIZE_LIMIT")
  ensure (props.dollarInterestRate ≤ 10000)
    (.assertion "dollar_interest_rate <= ZATTERA_100_PERCENT")

/-- The checks of a witness's URL. -/
def validateUrl (url : Text) : Except ChainError Unit := do
  ensure (url.length ≤ 2048) (.assertion "URL is too long")
  ensure (0 < url.length) (.assertion "URL size must be greater than 0")
  ensure (isUtf8 url) (.assertion "URL is not valid UTF8")

def WitnessUpdateOperation.validate (op : WitnessUpdateOperation) : Except ChainError Unit := do
  validateAccountName op.owner
  validateUrl op.url
  ensure (op.fee.symbol = .liquid) (.assertion "a.symbol == b.symbol")
  ensure (0 ≤ op.fee.amount) (.assertion "Fee cannot be negative")
  op.props.validate

/-- Check a property only if it is present. -/
def validateIfPresent {Value : Type} (property : Option Value)
    (check : Value → Except ChainError Unit) : Except ChainError Unit :=
  match property with
  | none => .ok ()
  | some value => check value

/-- The checks of a price feed given as a dollar price. -/
def validateDollarPrice (rate : Price) : Except ChainError Unit := do
  ensure (isAssetType rate.base .dollar && isAssetType rate.quote .liquid)
    (.assertion "Price feed must be a ZTR/ZBD price")
  rate.validate

def WitnessSetPropertiesOperation.validate (op : WitnessSetPropertiesOperation) :
    Except ChainError Unit := do
  validateAccountName op.owner
  ensure (op.key ≠ none) (.assertion "No signing key provided")
  validateIfPresent op.accountCreationFee fun fee => do
    ensure (fee.symbol = .liquid) (.assertion "account_creation_fee must be in ZTR")
    ensure (0 ≤ fee.amount)
      (.assertion "account_creation_fee smaller than minimum account creation fee")
  validateIfPresent op.maximumBlockSize fun size =>
    ensure (65536 ≤ size) (.assertion "maximum_block_size smaller than minimum max block size")
  validateIfPresent op.dollarInterestRate fun rate =>
    ensure (rate ≤ 10000) (.assertion "dollar_interest_rate must not exceed 100%")
  validateIfPresent op.dollarExchangeRate validateDollarPrice
  validateIfPresent op.url validateUrl

def AccountWitnessVoteOperation.validate (op : AccountWitnessVoteOperation) :
    Except ChainError Unit := do
  validateAccountName op.account
  validateAccountName op.witness

def AccountWitnessProxyOperation.validate (op : AccountWitnessProxyOperation) :
    Except ChainError Unit := do
  validateAccountName op.account
  if op.proxy.size ≠ 0 then validateAccountName op.proxy else .ok ()
  ensure (op.proxy ≠ op.account) (.assertion "Cannot proxy to self")

def CustomOperation.validate (op : CustomOperation) : Except ChainError Unit :=
  ensure (0 < op.requiredAuths.length) (.assertion "at least one account must be specified")

def CustomJsonOperation.validate (op : CustomJsonOperation) : Except ChainError Unit := do
  ensure (0 < op.requiredAuths.length + op.requiredPostingAuths.length)
    (.assertion "at least one account must be specified")
  ensure (op.id.length ≤ 32) (.assertion "id is too long")
  ensure (isUtf8 op.json.text) (.assertion "JSON Metadata not formatted in UTF8")
  ensure op.json.isValid (.assertion "JSON Metadata not valid JSON")

def CustomBinaryOperation.validate (op : CustomBinaryOperation) : Except ChainError Unit := do
  ensure (0 < op.requiredOwnerAuths.length + op.requiredActiveAuths.length +
      op.requiredPostingAuths.length) (.assertion "at least one account must be specified")
  ensure (op.id.length ≤ 32) (.assertion "id is too long")
  forM op.requiredAuths Authority.validate

def FeedPublishOperation.validate (op : FeedPublishOperation) : Except ChainError Unit := do
  validateAccountName op.publisher
  ensure ((isAssetType op.exchangeRate.base .liquid && isAssetType op.exchangeRate.quote .dollar) ||
      (isAssetType op.exchangeRate.base .dollar && isAssetType op.exchangeRate.quote .liquid))
    (.assertion "Price feed must be a ZTR/ZBD price")
  op.exchangeRate.validate

/-- Whether two symbols are the two sides of the internal market. -/
def isMarket (sell receive : AssetSymbol) : Bool :=
  decide (sell = .liquid ∧ receive = .dollar ∨ sell = .dollar ∧ receive = .liquid)

def LimitOrderCreateOperation.validate (op : LimitOrderCreateOperation) :
    Except ChainError Unit := do
  validateAccountName op.owner
  ensure (isMarket op.amountToSell.symbol op.minToReceive.symbol)
    (.assertion "Limit order must be for the ZTR:ZBD market")
  let price ← Price.ofAssets op.amountToSell op.minToReceive
  price.validate

def LimitOrderCreate2Operation.validate (op : LimitOrderCreate2Operation) :
    Except ChainError Unit := do
  validateAccountName op.owner
  ensure (op.amountToSell.symbol = op.exchangeRate.base.symbol)
    (.assertion "Sell asset must be the base of the price")
  op.exchangeRate.validate
  ensure (isMarket op.amountToSell.symbol op.exchangeRate.quote.symbol)
    (.assertion "Limit order must be for the ZTR:ZBD market")
  let received ← op.amountToSell.mulPrice op.exchangeRate
  ensure (0 < received.amount) (.assertion "Amount to sell cannot round to 0 when traded")

def LimitOrderCancelOperation.validate (op : LimitOrderCancelOperation) :
    Except ChainError Unit :=
  validateAccountName op.owner

def ConvertOperation.validate (op : ConvertOperation) : Except ChainError Unit := do
  validateAccountName op.owner
  ensure (isAssetType op.amount .dollar) (.assertion "Can only convert ZBD to ZTR")
  ensure (0 < op.amount.amount) (.assertion "Must convert some ZBD")

def ReportOverProductionOperation.validate (op : ReportOverProductionOperation) :
    Except ChainError Unit := do
  validateAccountName op.reporter
  validateAccountName op.firstBlock.witness
  ensure (op.firstBlock.witness = op.secondBlock.witness)
    (.assertion "first_block.witness == second_block.witness")
  ensure (op.firstBlock.timestamp = op.secondBlock.timestamp)
    (.assertion "first_block.timestamp == second_block.timestamp")
  ensure (op.firstBlock.signee = op.secondBlock.signee)
    (.assertion "first_block.signee() == second_block.signee()")
  ensure (op.firstBlock.id ≠ op.secondBlock.id) (.assertion "first_block.id() != second_block.id()")

/-- The checks shared by the amounts of the escrow operations. -/
def validateEscrowSymbols (dollarAmount liquidAmount : Asset) : Except ChainError Unit := do
  ensure (dollarAmount.symbol = .dollar) (.assertion "dollar amount must contain ZBD")
  ensure (liquidAmount.symbol = .liquid) (.assertion "liquid amount must contain ZTR")

def EscrowTransferOperation.validate (op : EscrowTransferOperation) : Except ChainError Unit := do
  validateAccountName op.fromAccount
  validateAccountName op.toAccount
  validateAccountName op.agent
  ensure (0 ≤ op.fee.amount) (.assertion "fee cannot be negative")
  ensure (0 ≤ op.dollarAmount.amount) (.assertion "dollar amount cannot be negative")
  ensure (0 ≤ op.liquidAmount.amount) (.assertion "liquid amount cannot be negative")
  ensure (0 < op.dollarAmount.amount ∨ 0 < op.liquidAmount.amount)
    (.assertion "escrow must transfer a non-zero amount")
  ensure (op.fromAccount ≠ op.agent ∧ op.toAccount ≠ op.agent)
    (.assertion "agent must be a third party")
  ensure (op.fee.symbol = .liquid ∨ op.fee.symbol = .dollar) (.assertion "fee must be ZTR or ZBD")
  validateEscrowSymbols op.dollarAmount op.liquidAmount
  ensure (op.ratificationDeadline < op.escrowExpiration)
    (.assertion "ratification deadline must be before escrow expiration")
  op.jsonMeta.validate

def EscrowApproveOperation.validate (op : EscrowApproveOperation) : Except ChainError Unit := do
  validateAccountName op.fromAccount
  validateAccountName op.toAccount
  validateAccountName op.agent
  validateAccountName op.who
  ensure (op.who = op.toAccount ∨ op.who = op.agent)
    (.assertion "to or agent must approve escrow")

def EscrowDisputeOperation.validate (op : EscrowDisputeOperation) : Except ChainError Unit := do
  validateAccountName op.fromAccount
  validateAccountName op.toAccount
  validateAccountName op.agent
  validateAccountName op.who
  ensure (op.who = op.fromAccount ∨ op.who = op.toAccount) (.assertion "who must be from or to")

def EscrowReleaseOperation.validate (op : EscrowReleaseOperation) : Except ChainError Unit := do
  validateAccountName op.fromAccount
  validateAccountName op.toAccount
  validateAccountName op.agent
  validateAccountName op.who
  validateAccountName op.receiver
  ensure (op.who = op.fromAccount ∨ op.who = op.toAccount ∨ op.who = op.agent)
    (.assertion "who must be from or to or agent")
  ensure (op.receiver = op.fromAccount ∨ op.receiver = op.toAccount)
    (.assertion "receiver must be from or to")
  ensure (0 ≤ op.dollarAmount.amount) (.assertion "dollar amount cannot be negative")
  ensure (0 ≤ op.liquidAmount.amount) (.assertion "liquid amount cannot be negative")
  ensure (0 < op.dollarAmount.amount ∨ 0 < op.liquidAmount.amount)
    (.assertion "escrow must release a non-zero amount")
  validateEscrowSymbols op.dollarAmount op.liquidAmount

def RequestAccountRecoveryOperation.validate (op : RequestAccountRecoveryOperation) :
    Except ChainError Unit := do
  validateAccountName op.recoveryAccount
  validateAccountName op.accountToRecover
  op.newOwnerAuthority.validate

def RecoverAccountOperation.validate (op : RecoverAccountOperation) : Except ChainError Unit := do
  validateAccountName op.accountToRecover
  ensure (op.newOwnerAuthority ≠ op.recentOwnerAuthority)
    (.assertion "Cannot set new owner authority to the recent owner authority")
  ensure (!op.newOwnerAuthority.isImpossible)
    (.assertion "new owner authority cannot be impossible")
  ensure (!op.recentOwnerAuthority.isImpossible)
    (.assertion "recent owner authority cannot be impossible")
  ensure (op.newOwnerAuthority.weightThreshold ≠ 0)
    (.assertion "new owner authority cannot be trivial")
  op.newOwnerAuthority.validate
  op.recentOwnerAuthority.validate

def ChangeRecoveryAccountOperation.validate (op : ChangeRecoveryAccountOperation) :
    Except ChainError Unit := do
  validateAccountName op.accountToRecover
  validateAccountName op.newRecoveryAccount

/-- The checks of an amount moved to or from savings. -/
def validateSavingsAmount (amount : Asset) : Except ChainError Unit := do
  ensure (0 < amount.amount) (.assertion "amount.amount > 0")
  ensure (amount.symbol = .liquid ∨ amount.symbol = .dollar)
    (.assertion "amount.symbol == LIQUID_SYMBOL || amount.symbol == DOLLAR_SYMBOL")

def TransferToSavingsOperation.validate (op : TransferToSavingsOperation) :
    Except ChainError Unit := do
  validateAccountName op.fromAccount
  validateAccountName op.toAccount
  validateSavingsAmount op.amount
  validateMemo op.memo

def TransferFromSavingsOperation.validate (op : TransferFromSavingsOperation) :
    Except ChainError Unit := do
  validateAccountName op.fromAccount
  validateAccountName op.toAccount
  validateSavingsAmount op.amount
  validateMemo op.memo

def CancelTransferFromSavingsOperation.validate (op : CancelTransferFromSavingsOperation) :
    Except ChainError Unit :=
  validateAccountName op.fromAccount

def DeclineVotingRightsOperation.validate (op : DeclineVotingRightsOperation) :
    Except ChainError Unit :=
  validateAccountName op.account

def ResetAccountOperation.validate (op : ResetAccountOperation) : Except ChainError Unit := do
  validateAccountName op.resetAccount
  validateAccountName op.accountToReset
  ensure (!op.newOwnerAuthority.isImpossible)
    (.assertion "new owner authority cannot be impossible")
  ensure (op.newOwnerAuthority.weightThreshold ≠ 0)
    (.assertion "new owner authority cannot be trivial")
  op.newOwnerAuthority.validate

def SetResetAccountOperation.validate (op : SetResetAccountOperation) : Except ChainError Unit := do
  validateAccountName op.account
  if op.currentResetAccount.size ≠ 0 then validateAccountName op.currentResetAccount else .ok ()
  validateAccountName op.resetAccount
  ensure (op.currentResetAccount ≠ op.resetAccount)
    (.assertion "new reset account cannot be current reset account")

def ClaimRewardBalanceOperation.validate (op : ClaimRewardBalanceOperation) :
    Except ChainError Unit := do
  validateAccountName op.account
  ensure (isAssetType op.rewardLiquids .liquid) (.assertion "Reward Zattera must be ZTR")
  ensure (isAssetType op.rewardDollars .dollar) (.assertion "Reward Zattera must be ZBD")
  ensure (isAssetType op.rewardVests .vests) (.assertion "Reward Zattera must be VESTS")
  ensure (0 ≤ op.rewardLiquids.amount) (.assertion "Cannot claim a negative amount")
  ensure (0 ≤ op.rewardDollars.amount) (.assertion "Cannot claim a negative amount")
  ensure (0 ≤ op.rewardVests.amount) (.assertion "Cannot claim a negative amount")
  ensure (0 < op.rewardLiquids.amount ∨ 0 < op.rewardDollars.amount ∨ 0 < op.rewardVests.amount)
    (.assertion "Must claim something.")

def DelegateVestingSharesOperation.validate (op : DelegateVestingSharesOperation) :
    Except ChainError Unit := do
  validateAccountName op.delegator
  validateAccountName op.delegatee
  ensure (op.delegator ≠ op.delegatee) (.assertion "You cannot delegate VESTS to yourself")
  ensure (isAssetType op.vestingShares .vests) (.assertion "Delegation must be VESTS")
  ensure (0 ≤ op.vestingShares.amount) (.assertion "Delegation cannot be negative")

/-- `operation_validate` -/
def Operation.validate : Operation → Except ChainError Unit
  | .vote op => op.validate
  | .comment op => op.validate
  | .transfer op => op.validate
  | .transferToVesting op => op.validate
  | .withdrawVesting op => op.validate
  | .limitOrderCreate op => op.validate
  | .limitOrderCancel op => op.validate
  | .feedPublish op => op.validate
  | .convert op => op.validate
  | .accountCreate op => op.validate
  | .accountUpdate op => op.validate
  | .witnessUpdate op => op.validate
  | .accountWitnessVote op => op.validate
  | .accountWitnessProxy op => op.validate
  | .custom op => op.validate
  | .reportOverProduction op => op.validate
  | .deleteComment op => op.validate
  | .customJson op => op.validate
  | .commentOptions op => op.validate
  | .setWithdrawVestingRoute op => op.validate
  | .limitOrderCreate2 op => op.validate
  | .claimAccount op => op.validate
  | .createClaimedAccount op => op.validate
  | .requestAccountRecovery op => op.validate
  | .recoverAccount op => op.validate
  | .changeRecoveryAccount op => op.validate
  | .escrowTransfer op => op.validate
  | .escrowDispute op => op.validate
  | .escrowRelease op => op.validate
  | .escrowApprove op => op.validate
  | .transferToSavings op => op.validate
  | .transferFromSavings op => op.validate
  | .cancelTransferFromSavings op => op.validate
  | .customBinary op => op.validate
  | .declineVotingRights op => op.validate
  | .resetAccount op => op.validate
  | .setResetAccount op => op.validate
  | .claimRewardBalance op => op.validate
  | .delegateVestingShares op => op.validate
  | .accountCreateWithDelegation op => op.validate
  | .witnessSetProperties op => op.validate
  | .virtualOperation => .error (.assertion "This is a virtual operation")

/-! ### Required authorities -/

open RequiredAuthorities in
/-- `operation_get_required_authorities` -/
def Operation.addRequiredAuthorities (required : RequiredAuthorities) :
    Operation → RequiredAuthorities
  | .vote op => required.addPosting op.voter
  | .comment op => required.addPosting op.author
  | .transfer op =>
    if op.amount.symbol = .vests then required.addOwner op.fromAccount
    else required.addActive op.fromAccount
  | .transferToVesting op => required.addActive op.fromAccount
  | .withdrawVesting op => required.addActive op.account
  | .limitOrderCreate op => required.addActive op.owner
  | .limitOrderCancel op => required.addActive op.owner
  | .feedPublish op => required.addActive op.publisher
  | .convert op => required.addActive op.owner
  | .accountCreate op => required.addActive op.creator
  | .accountUpdate op =>
    if op.owner.isSome then required.addOwner op.account else required.addActive op.account
  | .witnessUpdate op => required.addActive op.owner
  | .accountWitnessVote op => required.addActive op.account
  | .accountWitnessProxy op => required.addActive op.account
  | .custom op => op.requiredAuths.foldl addActive required
  | .reportOverProduction _ => required
  | .deleteComment op => required.addPosting op.author
  | .customJson op =>
    op.requiredPostingAuths.foldl addPosting (op.requiredAuths.foldl addActive required)
  | .commentOptions op => required.addPosting op.author
  | .setWithdrawVestingRoute op => required.addActive op.fromAccount
  | .limitOrderCreate2 op => required.addActive op.owner
  | .claimAccount op => required.addActive op.creator
  | .createClaimedAccount op => required.addActive op.creator
  | .requestAccountRecovery op => required.addActive op.recoveryAccount
  | .recoverAccount op =>
    (required.addOther op.newOwnerAuthority).addOther op.recentOwnerAuthority
  | .changeRecoveryAccount op => required.addOwner op.accountToRecover
  | .escrowTransfer op => required.addActive op.fromAccount
  | .escrowDispute op => required.addActive op.who
  | .escrowRelease op => required.addActive op.who
  | .escrowApprove op => required.addActive op.who
  | .transferToSavings op => required.addActive op.fromAccount
  | .transferFromSavings op => required.addActive op.fromAccount
  | .cancelTransferFromSavings op => required.addActive op.fromAccount
  | .customBinary op =>
    op.requiredAuths.foldl addOther
      (op.requiredPostingAuths.foldl addPosting
        (op.requiredActiveAuths.foldl addActive
          (op.requiredOwnerAuths.foldl addOwner required)))
  | .declineVotingRights op => required.addOwner op.account
  | .resetAccount op => required.addActive op.resetAccount
  | .setResetAccount op =>
    if op.currentResetAccount.size ≠ 0 then required.addOwner op.account
    else required.addPosting op.account
  | .claimRewardBalance op => required.addPosting op.account
  | .delegateVestingShares op => required.addActive op.delegator
  | .accountCreateWithDelegation op => required.addActive op.creator
  | .witnessSetProperties op =>
    match op.key with
    | some key => required.addOther (Authority.ofKey key)
    -- The authority of the null account is impossible to satisfy.
    | none => required.addOther (Authority.ofAccount AccountName.null)
  | .virtualOperation => required

end Zattera
