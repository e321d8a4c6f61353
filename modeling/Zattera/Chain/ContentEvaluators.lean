/-
This file models the evaluators for content: comments and their options, and the
votes on them, which spend voting power and earn a weight in the curation reward.
-/

import Zattera.Chain.Rewards
import Zattera.Chain.VestingEvaluators

namespace Zattera

open Program

/-! ### Comments -/

/-- `get_comment` -/
def getComment (author : AccountName) (permlink : Text) : Chain Comment := do
  lookup ((← get).comments.find? (author, cString permlink))

/-- `get< comment_object >( id )` -/
def getCommentById (id : Nat) : Chain Comment := do
  lookup ((← get).comments.objects.find? fun comment => decide (comment.id = id))

def putComment (comment : Comment) : Chain Unit :=
  modify fun state => { state with comments := state.comments.replace comment }

def insertComment (comment : Comment) : Chain Unit :=
  create ChainState.comments
    (fun state added => { state with comments := added, nextCommentId := state.nextCommentId + 1 })
    comment

def insertCommentContent (content : CommentContent) : Chain Unit :=
  create ChainState.commentContents
    (fun state added => { state with commentContents := added }) content

/-- `validate_permlink_0_1` -/
def validatePermlink01 (permlink : Text) : Except ChainError Unit := do
  ensure (0 < permlink.length ∧ permlink.length < 256)
    (.assertion "Permlink is not a valid size.")
  ensure (permlink.all fun byte => isLowerCase byte.toNat || isDigit byte.toNat || byte == 45)
    (.assertion "Invalid permlink character: $\x7bs\x7d")

/-- `strcmp_equal`, which takes texts of one length to be equal -/
def strcmpEqual (a b : Text) : Bool := decide (a.length = b.length ∨ cString a = cString b)

/-- The walk from a parent up to the root of a discussion, which counts a reply in each of them. A
comment at depth `n` has `n` comments above it. -/
def countReply (count : Nat → Nat) : Nat → Comment → Chain Unit
  | depth, parent => do
    putComment { parent with children := count parent.children }
    match depth with
    | 0 => return ()
    | depth + 1 =>
      if parent.parentAuthor ≠ AccountName.rootPostParent then do
        let next ← getComment parent.parentAuthor parent.parentPermlink
        countReply count depth next
      else return ()

/-- The parent an operation names, if it does not open a discussion. -/
def findParent (o : CommentOperation) : Chain (Option Comment) := do
  if o.parentAuthor ≠ AccountName.rootPostParent then do
    let parent ← getComment o.parentAuthor o.parentPermlink
    require (parent.depth < 65535) (.assertion
      "Comment is nested $\x7bx\x7d posts deep, maximum depth is $\x7by\x7d.")
    return some parent
  else return none

/-- A new comment below `parent`, with the defaults of `comment_object`. -/
def Comment.make (id : Nat) (o : CommentOperation) (parent : Option Comment) (now : TimePointSec) :
    Comment where
  id := id
  parentAuthor := (parent.map Comment.author).getD AccountName.rootPostParent
  parentPermlink := (parent.map Comment.permlink).getD o.parentPermlink
  author := o.author
  permlink := o.permlink
  created := now
  lastPayout := TimePointSec.min
  depth := (parent.map fun above => above.depth + 1).getD 0
  children := 0
  netRshares := 0
  absRshares := 0
  voteRshares := 0
  childrenAbsRshares := 0
  cashoutTime := now + 604800
  maxCashoutTime := TimePointSec.maximum
  totalVoteWeight := 0
  rewardWeight := 10000
  totalPayoutValue := 0
  curatorPayoutValue := 0
  beneficiaryPayoutValue := 0
  authorRewards := 0
  netVotes := 0
  rootComment := (parent.map Comment.rootComment).getD id
  maxAcceptedPayout := 1000000000
  percentZatteraDollars := 10000
  allowReplies := true
  allowVotes := true
  allowCurationRewards := true
  beneficiaries := []

/-- The limits on how often an account posts. -/
def requirePostInterval (author : Account) (parent : Option Comment) (now : TimePointSec) :
    Chain Unit :=
  match parent with
  | none =>
    require (300 < secondsBetween now author.lastRootPost)
      (.assertion "You may only post once every 5 minutes.")
  | some _ =>
    require (3 ≤ secondsBetween now author.lastPost)
      (.assertion "You may only comment once every 3 seconds.")

/-- The root of a discussion may have disabled replies. -/
def requireReplies (parent : Option Comment) : Chain Unit :=
  match parent with
  | none => return ()
  | some parent => do
    let root ← getCommentById parent.rootComment
    require root.allowReplies (.assertion "The parent comment has disabled replies.")

def createComment (o : CommentOperation) (author : Account) (parent : Option Comment)
    (now : TimePointSec) : Chain Unit := do
  requireReplies parent
  requirePostInterval author parent now
  updateAccount author.name fun author => { author with
    lastRootPost := if parent.isNone then now else author.lastRootPost
    lastPost := now
    postCount := author.postCount + 1 }
  validatePermlink01 o.parentPermlink
  validatePermlink01 o.permlink
  let id := (← get).nextCommentId
  insertComment (Comment.make id o parent now)
  insertCommentContent ⟨id, o.title, o.jsonMetadata.text⟩
  match parent with
  | some parent => countReply (· + 1) parent.depth parent
  | none => return ()

def editComment (o : CommentOperation) (comment : Comment) (parent : Option Comment) :
    Chain Unit := do
  let parentAuthor := if parent.isSome then o.parentAuthor else default
  require (comment.parentAuthor = parentAuthor)
    (.assertion "The parent of a comment cannot change.")
  require (strcmpEqual comment.parentPermlink o.parentPermlink)
    (.assertion "The permlink of a comment cannot change.")
  let content ← lookup ((← get).commentContents.find? comment.id)
  modify fun state => { state with
    commentContents := state.commentContents.replace { content with
      title := if o.title = [] then content.title else o.title
      jsonMetadata := if o.jsonMetadata.text = [] then content.jsonMetadata
        else o.jsonMetadata.text } }

def commentEvaluator (o : CommentOperation) : Chain Unit := do
  require (0 < o.title.length + o.body.length + o.jsonMetadata.text.length)
    (.assertion "Cannot update comment because nothing appears to be changing.")
  let author ← getAccount o.author
  let parent ← findParent o
  require (isUtf8 o.jsonMetadata.text) (.assertion "JSON Metadata must be UTF-8")
  let now ← headBlockTime
  match (← get).comments.find? (o.author, cString o.permlink) with
  | none => createComment o author parent now
  | some comment => editComment o comment parent

def deleteCommentEvaluator (o : DeleteCommentOperation) : Chain Unit := do
  let comment ← getComment o.author o.permlink
  require (comment.children = 0) (.assertion "Cannot delete a comment with replies.")
  require (comment.cashoutTime ≠ TimePointSec.maximum)
    (.assertion "comment.cashout_time != fc::time_point_sec::maximum()")
  require (comment.netRshares ≤ 0)
    (.assertion "Cannot delete a comment with net positive votes.")
  modify fun state => { state with
    commentVotes := state.commentVotes.filter fun vote => decide (vote.comment ≠ comment.id) }
  whenever (comment.parentAuthor ≠ AccountName.rootPostParent) do
    let parent ← getComment comment.parentAuthor comment.parentPermlink
    countReply (· - 1) parent.depth parent
  modify fun state => { state with comments := state.comments.erase comment.key }

/-- `retally_comment_children`: all counts of replies, made anew. -/
def retallyCommentChildren : Chain Unit := do
  forM (← get).comments.objects fun comment => putComment { comment with children := 0 }
  forM (← get).comments.objects fun comment =>
    whenever (comment.parentAuthor ≠ AccountName.rootPostParent) do
      let parent ← getComment comment.parentAuthor comment.parentPermlink
      countReply (· + 1) parent.depth parent

/-! ### Options -/

/-- The extension that names the beneficiaries of a comment's payout. -/
def setBeneficiaries (comment : Comment) (beneficiaries : List BeneficiaryRoute) :
    Chain Unit := do
  require (comment.beneficiaries = [])
    (.assertion "Comment already has beneficiaries specified.")
  require (comment.absRshares = 0)
    (.assertion "Comment must not have been voted on before specifying beneficiaries.")
  let state ← get
  forM beneficiaries fun route =>
    require (state.accounts.find? route.account).isSome
      (.assertion "Beneficiary \"$\x7ba\x7d\" must exist.")
  putComment { comment with beneficiaries := beneficiaries }

def commentOptionsEvaluator (o : CommentOptionsOperation) : Chain Unit := do
  let comment ← getComment o.author o.permlink
  let lowers ← o.maxAcceptedPayout.lt ⟨comment.maxAcceptedPayout, .dollar⟩
  whenever (o.allowCurationRewards = false ∨ o.allowVotes = false ∨ lowers = true) do
    require (comment.absRshares = 0) (.assertion
      ("One of the included comment options requires the comment to have no rshares " ++
        "allocated to it."))
  require (o.allowCurationRewards → comment.allowCurationRewards)
    (.assertion "Curation rewards cannot be re-enabled.")
  require (o.allowVotes → comment.allowVotes) (.assertion "Voting cannot be re-enabled.")
  requireAtLeast ⟨comment.maxAcceptedPayout, .dollar⟩ o.maxAcceptedPayout
    "A comment cannot accept a greater payout."
  require (o.percentZatteraDollars ≤ comment.percentZatteraDollars)
    (.assertion "A comment cannot accept a greater percent ZBD.")
  let changed := { comment with
    maxAcceptedPayout := o.maxAcceptedPayout.amount
    percentZatteraDollars := o.percentZatteraDollars
    allowVotes := o.allowVotes
    allowCurationRewards := o.allowCurationRewards }
  putComment changed
  match o.extensions with
  | some beneficiaries => setBeneficiaries changed beneficiaries
  | none => return ()

/-! ### Votes -/

/-- `get_effective_vesting_shares` -/
def Account.effectiveVestingShares (account : Account) : Except ChainError ShareType := do
  let kept ← account.vestingShareBalance.sub account.delegatedVestingShareBalance
  kept.add account.receivedVestingShareBalance

/-- The power an account has and uses for a vote, and the shares the vote is worth. -/
structure VotePower where
  currentPower : Nat
  usedPower : Nat
  absRshares : Int64

/-- The part of `vote_evaluator` that computes the power of a vote. Voting power regenerates over
five days. -/
def votePower (voter : Account) (dgpo : DynamicGlobalProperties) (weight : Int) :
    Except ChainError VotePower := do
  let effectiveVesting ← voter.effectiveVestingShares
  ensure (1000000 < effectiveVesting)
    (.assertion "Voter does not have enough effective vesting shares.")
  let elapsedSeconds := secondsBetween dgpo.time voter.lastVoteTime
  ensure (3 ≤ elapsedSeconds) (.assertion "Can only vote once every 3 seconds.")
  let regeneratedPower := 10000 * elapsedSeconds.toNat / 432000
  let currentPower := min (voter.votingPower + regeneratedPower) 10000
  ensure (0 < currentPower) (.assertion "Account currently does not have voting power.")
  let maxVoteDenom := dgpo.votePowerReserveRate * 432000
  ensure (0 < maxVoteDenom) (.assertion "max_vote_denom > 0")
  let usedSeconds := currentPower * weight.natAbs / 10000 * 86400
  let usedPower := (usedSeconds + maxVoteDenom - 1) / maxVoteDenom
  ensure (usedPower ≤ currentPower)
    (.assertion "Account does not have enough power to vote.")
  let rshares ← UInt128.toShareType
    (UInt128.ofInt64 effectiveVesting * BitVec.ofNat 128 usedPower / 10000)
  -- Votes below a threshold count for nothing.
  return ⟨currentPower, usedPower, Int64.ofInt (max 0 (rshares.toInt - 1000))⟩

/-- A payout may not be raised in its last twelve hours. -/
def requireBeforeLockout (comment : Comment) (now : TimePointSec) : Chain Unit :=
  require ((now.toNat : Int) < comment.cashoutTime.toNat - 43200)
    (.assertion "Cannot increase payout within last twelve hours before payout.")

/-- `get_reward_fund`: every comment is rewarded from one fund. -/
def ChainState.postRewardFund (state : ChainState) : Option RewardFund :=
  state.rewardFunds.find? (AccountName.ofChars ['p', 'o', 's', 't'])

/-- The weight a vote adds to a comment, before it is discounted by time. Weights are unsigned
64-bit numbers. -/
def curationWeight (fund : RewardFund) (oldVoteRshares newVoteRshares : ShareType) :
    Except ChainError Nat := do
  let oldWeight ← evaluateRewardCurve (UInt128.ofInt64 oldVoteRshares) fund.curationRewardCurve
    fund.contentConstant
  let newWeight ← evaluateRewardCurve (UInt128.ofInt64 newVoteRshares) fund.curationRewardCurve
    fund.contentConstant
  ensure (oldWeight.toNat < 18446744073709551616) (.assertion "hi == 0")
  ensure (newWeight.toNat < 18446744073709551616) (.assertion "hi == 0")
  return (newWeight.toNat + 18446744073709551616 - oldWeight.toNat) % 18446744073709551616

/-- The weight of a vote cast within thirty minutes of the comment is discounted. -/
def discountByTime (weight : Nat) (elapsed : Nat) : Nat := weight * min elapsed 1800 / 1800

/-- The weight of a new vote: nothing unless it raises a comment that still pays curators. -/
def newVoteWeight (comment : Comment) (rshares : Int64) (newVoteRshares : ShareType) :
    Chain Nat := do
  if 0 < rshares ∧ comment.lastPayout = 0 ∧ comment.allowCurationRewards then do
    let fund ← lookup (← get).postRewardFund
    if 0 < fund.percentCurationRewards then
      curationWeight fund comment.voteRshares newVoteRshares
    else return 0
  else return 0

def insertCommentVote (vote : CommentVote) : Chain Unit :=
  create ChainState.commentVotes (fun state added => { state with commentVotes := added }) vote

def putCommentVote (vote : CommentVote) : Chain Unit :=
  modify fun state => { state with commentVotes := state.commentVotes.replace vote }

/-- Count a vote in the root of the discussion. -/
def addChildrenAbsRshares (rootComment : Nat) (absRshares : Int64) : Chain Unit := do
  let root ← getCommentById rootComment
  let childrenAbsRshares ← root.childrenAbsRshares.add absRshares
  putComment { root with childrenAbsRshares := childrenAbsRshares }

def spendVotingPower (voter : Account) (power : VotePower) (now : TimePointSec) : Chain Unit :=
  updateAccount voter.name fun voter => { voter with
    votingPower := power.currentPower - power.usedPower
    lastVoteTime := now }

/-- The shares a vote is worth, for or against. -/
def VotePower.rshares (power : VotePower) (weight : Int) : Int64 :=
  if weight < 0 then -power.absRshares else power.absRshares

/-- The shares of the votes for a comment, after another vote. -/
def Comment.raisedVoteRshares (comment : Comment) (rshares : Int64) : Except ChainError ShareType :=
  if 0 < rshares then comment.voteRshares.add rshares else .ok comment.voteRshares

/-- The branch of `vote_evaluator` for the first vote of an account on a comment -/
def castVote (o : VoteOperation) (comment : Comment) (voter : Account) (power : VotePower)
    (now : TimePointSec) : Chain Unit := do
  require (o.weight ≠ 0) (.assertion "Vote weight cannot be 0.")
  let rshares := power.rshares o.weight
  whenever (0 < rshares) (requireBeforeLockout comment now)
  spendVotingPower voter power now
  require (0 < power.absRshares) (.assertion "Cannot vote with 0 rshares.")
  let netRshares ← comment.netRshares.add rshares
  let absRshares ← comment.absRshares.add power.absRshares
  let voteRshares ← comment.raisedVoteRshares rshares
  putComment { comment with
    netRshares := netRshares
    absRshares := absRshares
    voteRshares := voteRshares
    netVotes := if 0 < rshares then comment.netVotes + 1 else comment.netVotes - 1 }
  addChildrenAbsRshares comment.rootComment power.absRshares
  let maxVoteWeight ← newVoteWeight comment rshares voteRshares
  insertCommentVote {
    voter := voter.name
    voterId := voter.id
    comment := comment.id
    weight := discountByTime maxVoteWeight (secondsBetween now comment.created).toNat
    rshares := rshares
    votePercent := o.weight
    lastUpdate := now
    numChanges := 0 }
  let voted ← getCommentById comment.id
  putComment { voted with
    totalVoteWeight := (voted.totalVoteWeight + maxVoteWeight) % 18446744073709551616 }

/-- How a changed vote changes the count of votes for less votes against. -/
def netVotesChange (oldRshares newRshares : Int64) : Int := newRshares.toInt.sign - oldRshares.toInt.sign

/-- The branch of `vote_evaluator` for a changed vote, which loses its weight -/
def changeVote (o : VoteOperation) (comment : Comment) (voter : Account) (power : VotePower)
    (vote : CommentVote) (now : TimePointSec) : Chain Unit := do
  require (vote.numChanges < 5)
    (.assertion "Voter has used the maximum number of vote changes on this comment.")
  require (vote.votePercent ≠ o.weight)
    (.assertion "You have already voted in a similar way.")
  let rshares := power.rshares o.weight
  whenever (vote.rshares < rshares) (requireBeforeLockout comment now)
  spendVotingPower voter power now
  let without ← comment.netRshares.sub vote.rshares
  let netRshares ← without.add rshares
  let absRshares ← comment.absRshares.add power.absRshares
  putComment { comment with
    netRshares := netRshares
    absRshares := absRshares
    netVotes := comment.netVotes + netVotesChange vote.rshares rshares }
  addChildrenAbsRshares comment.rootComment power.absRshares
  let voted ← getCommentById comment.id
  putComment { voted with
    totalVoteWeight :=
      (voted.totalVoteWeight + 18446744073709551616 - vote.weight) % 18446744073709551616 }
  putCommentVote { vote with
    rshares := rshares
    votePercent := o.weight
    lastUpdate := now
    weight := 0
    numChanges := vote.numChanges + 1 }

/-- The evaluator of votes. The build clears old votes from memory, so a vote on a comment that has
been paid out leaves nothing behind. -/
def voteEvaluator (o : VoteOperation) : Chain Unit := do
  let comment ← getComment o.author o.permlink
  let voter ← getAccount o.voter
  require voter.canVote (.assertion "Voter has declined their voting rights.")
  whenever (0 < o.weight) do
    require comment.allowVotes (.assertion "Votes are not allowed on the comment.")
  let state ← get
  if comment.cashoutTime = TimePointSec.maximum then return ()
  else do
    let power ← votePower voter state.dgp o.weight
    match state.commentVotes.find? (comment.id, voter.name) with
    | none => castVote o comment voter power state.dgp.time
    | some vote => do
      require (vote.numChanges ≠ -1)
        (.assertion "Cannot vote again on a comment after payout.")
      changeVote o comment voter power vote state.dgp.time

end Zattera
