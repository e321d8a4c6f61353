/-
This file models the payout of comments. When a comment is due it claims a part
of the reward fund; curators get their part in the order of their weight, the
beneficiaries theirs, and the author the rest, half of it in dollars where
dollars are being printed. All comments of a block are paid from one snapshot of
the fund.
-/

import Zattera.Chain.Funds

namespace Zattera

open Program

/-! ### Curators -/

/-- The votes on a comment, those of the greatest weight first and by voter among equals. -/
def ChainState.votesByWeight (state : ChainState) (comment : Nat) : List CommentVote :=
  (state.commentVotes.objects.filter (·.comment = comment)).insertionSort fun a b =>
    b.weight < a.weight ∨ a.weight = b.weight ∧ a.voterId ≤ b.voterId

/-- What a vote claims of the curation reward. -/
def curatorClaim (maxRewards : ShareType) (weight totalWeight : Nat) :
    Except ChainError ShareType := do
  let share ← UInt128.div (UInt128.ofInt64 maxRewards * BitVec.ofNat 128 weight)
    (BitVec.ofNat 128 totalWeight)
  UInt128.toShareType share

/-- The loop of `pay_curators`, with the rewards not claimed so far -/
def payEachCurator (maxRewards : ShareType) (totalWeight : Nat) :
    List CommentVote → ShareType → Chain ShareType
  | [], unclaimed => return unclaimed
  | vote :: rest, unclaimed => do
    let claim ← curatorClaim maxRewards vote.weight totalWeight
    if claim ≠ 0 then do
      let unclaimed ← unclaimed.sub claim
      discard (createRewardVesting vote.voter ⟨claim, .liquid⟩)
      modifyAccount vote.voter fun account => do
        let curationRewards ← account.curationRewards.add claim
        return { account with curationRewards := curationRewards }
      payEachCurator maxRewards totalWeight rest unclaimed
    else payEachCurator maxRewards totalWeight rest unclaimed

/-- Pay all votes on a comment; returns the rewards nobody claimed. -/
def payAllCurators (comment : Comment) (maxRewards : ShareType) : Chain ShareType := do
  if 0 < comment.totalVoteWeight then do
    payEachCurator maxRewards comment.totalVoteWeight ((← get).votesByWeight comment.id) maxRewards
  else return maxRewards

/-- `pay_curators`; returns what the curators were paid. -/
def payCurators (comment : Comment) (maxRewards : ShareType) : Chain ShareType := do
  if comment.allowCurationRewards = false then return 0
  else do
    let unclaimed ← payAllCurators comment maxRewards
    maxRewards.sub unclaimed

/-! ### One comment -/

/-- The loop over the beneficiaries of a comment, with their total so far -/
def payEachBeneficiary (authorTokens : ShareType) :
    List BeneficiaryRoute → ShareType → Chain ShareType
  | [], total => return total
  | route :: rest, total => do
    let tokens ← percentOf authorTokens route.weight
    discard (createRewardVesting route.account ⟨tokens, .liquid⟩)
    let total ← total.add tokens
    payEachBeneficiary authorTokens rest total

/-- The half of the author's tokens that may be paid in dollars. -/
def dollarPart (authorTokens : ShareType) (percentZatteraDollars : Nat) :
    Except ChainError ShareType := do
  let scaled ← authorTokens.mul (Int64.ofNat percentZatteraDollars)
  scaled.div 20000

/-- `adjust_total_payout` with the values of what was paid to the author, to curators and to
beneficiaries, and the author's own count of rewards -/
def recordPayout (key : AccountName × Text) (median : Price) (dollars : Asset)
    (authorLiquid curationTokens totalBeneficiary authorTokens : ShareType) : Chain Unit := do
  let authorValue ← toDollar median ⟨authorLiquid, .liquid⟩
  let paid ← dollars.add authorValue
  let curatorValue ← toDollar median ⟨curationTokens, .liquid⟩
  let beneficiaryValue ← toDollar median ⟨totalBeneficiary, .liquid⟩
  let comment ← lookup ((← get).comments.find? key)
  let totalPayoutValue ← comment.totalPayoutValue.add paid.amount
  let curatorPayoutValue ← comment.curatorPayoutValue.add curatorValue.amount
  let beneficiaryPayoutValue ← comment.beneficiaryPayoutValue.add beneficiaryValue.amount
  let authorRewards ← comment.authorRewards.add authorTokens
  putComment { comment with
    totalPayoutValue := totalPayoutValue
    curatorPayoutValue := curatorPayoutValue
    beneficiaryPayoutValue := beneficiaryPayoutValue
    authorRewards := authorRewards }

/-- The part of `cashout_comment_helper` that pays out a reward; returns what was claimed. -/
def payReward (comment : Comment) (fund : RewardFund) (reward : ShareType) : Chain ShareType := do
  let maxCuration ← UInt128.toShareType
    (UInt128.ofInt64 reward * BitVec.ofNat 128 fund.percentCurationRewards / 10000)
  let authorTokens ← reward.sub maxCuration
  let curationTokens ← payCurators comment maxCuration
  let claimedReward ← authorTokens.add curationTokens
  let totalBeneficiary ← payEachBeneficiary authorTokens comment.beneficiaries 0
  let kept ← authorTokens.sub totalBeneficiary
  let dollarAmount ← dollarPart kept comment.percentZatteraDollars
  let vestingLiquid ← kept.sub dollarAmount
  discard (createRewardVesting comment.author ⟨vestingLiquid, .liquid⟩)
  let (dollars, liquid) ← createDollar comment.author dollarAmount true
  let authorLiquid ← liquid.add vestingLiquid
  let median := (← get).feedHistory.currentMedianHistory
  recordPayout comment.key median dollars authorLiquid curationTokens totalBeneficiary kept
  -- The value of the whole reward is computed for the notification of the payout.
  discard (toDollar median ⟨claimedReward, .liquid⟩)
  modifyAccount comment.author fun account => do
    let postingRewards ← account.postingRewards.add kept
    return { account with postingRewards := postingRewards }
  return claimedReward

/-- The context of a comment's reward, `fill_comment_reward_context_local_state` included -/
def rewardContext (comment : Comment) (fund : RewardFund) (recentClaims : UInt128)
    (rewardBalance : ShareType) (median : Price) : CommentRewardContext where
  rshares := comment.netRshares
  rewardWeight := comment.rewardWeight
  maxDollars := ⟨comment.maxAcceptedPayout, .dollar⟩
  totalRewardShares2 := recentClaims
  totalRewardFundLiquid := rewardBalance
  currentLiquidPrice := median
  rewardCurve := fund.authorRewardCurve
  contentConstant := fund.contentConstant

/-- The comment after its payout. Negative shares stay. -/
def Comment.cashedOut (comment : Comment) (now : TimePointSec) : Comment :=
  { comment with
    netRshares := if 0 < comment.netRshares then 0 else comment.netRshares
    childrenAbsRshares := 0
    absRshares := 0
    voteRshares := 0
    totalVoteWeight := 0
    maxCashoutTime := TimePointSec.maximum
    cashoutTime := TimePointSec.maximum
    lastPayout := now }

/-- The reward of a comment with positive votes, paid out; returns what was claimed. -/
def claimReward (comment : Comment) (fund : RewardFund) (recentClaims : UInt128)
    (rewardBalance : ShareType) : Chain ShareType := do
  if 0 < comment.netRshares then do
    let median := (← get).feedHistory.currentMedianHistory
    let reward ← getRshareReward (rewardContext comment fund recentClaims rewardBalance median)
    if reward ≠ 0 then payReward comment fund reward else return 0
  else return 0

/-- `cashout_comment_helper` for the comment under a key; the votes on it are cleared. -/
def cashoutCommentHelper (recentClaims : UInt128) (rewardBalance : ShareType)
    (key : AccountName × Text) : Chain ShareType := do
  let comment ← lookup ((← get).comments.find? key)
  let fund ← lookup (← get).postRewardFund
  let claimedReward ← claimReward comment fund recentClaims rewardBalance
  let paid ← lookup ((← get).comments.find? key)
  let now ← headBlockTime
  putComment (paid.cashedOut now)
  modify fun state => { state with
    commentVotes := state.commentVotes.filter fun vote => decide (vote.comment ≠ comment.id) }
  return claimedReward

/-! ### All comments of a block -/

/-- The decay of a fund's recent claims, over fifteen days -/
def RewardFund.decayed (fund : RewardFund) (now : TimePointSec) : RewardFund :=
  { fund with
    recentClaims := fund.recentClaims -
      fund.recentClaims * BitVec.ofInt 128 (secondsBetween now fund.lastUpdate) / 1296000
    lastUpdate := now }

/-- The comments that are due, in the order of their times. -/
def ChainState.dueComments (state : ChainState) : List Comment :=
  (state.comments.objects.filter fun comment =>
    decide (comment.cashoutTime ≤ state.dgp.time)).insertionSort fun a b =>
      a.cashoutTime < b.cashoutTime ∨ a.cashoutTime = b.cashoutTime ∧ a.id ≤ b.id

/-- The loop that adds the claims of all comments about to be paid -/
def addClaims (fund : RewardFund) : List Comment → UInt128 → Except ChainError UInt128
  | [], claims => .ok claims
  | comment :: rest, claims =>
    if 0 < comment.netRshares then do
      let claim ← evaluateRewardCurve (UInt128.ofInt64 comment.netRshares) fund.authorRewardCurve
        fund.contentConstant
      addClaims fund rest (claims + claim)
    else addClaims fund rest claims

/-- The loop that pays all comments, with the tokens awarded so far -/
def cashoutEach (recentClaims : UInt128) (rewardBalance : ShareType) :
    List Comment → ShareType → Chain ShareType
  | [], awarded => return awarded
  | comment :: rest, awarded => do
    let claimed ← cashoutCommentHelper recentClaims rewardBalance comment.key
    let awarded ← awarded.add claimed
    cashoutEach recentClaims rewardBalance rest awarded

/-- `process_comment_cashout`. Every comment is paid from the fund for posts. -/
def processCommentCashout : Chain Unit := do
  let now ← headBlockTime
  forM (← get).rewardFunds.objects fun fund => putRewardFund (fund.decayed now)
  let state ← get
  let due := state.dueComments
  whenever (due ≠ []) do
    let fund ← lookup state.postRewardFund
    let recentClaims ← addClaims fund due fund.recentClaims
    let awarded ← cashoutEach recentClaims fund.rewardBalance due 0
    let fund ← lookup (← get).postRewardFund
    let rewardBalance ← fund.rewardBalance.sub awarded
    putRewardFund { fund with recentClaims := recentClaims, rewardBalance := rewardBalance }

end Zattera
