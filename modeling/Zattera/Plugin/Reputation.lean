/-
This file models the reputation plugin. Before a vote counts, what an earlier
vote of the same voter on the same comment gave to its author is taken back, and
afterwards the new vote is counted; who may change whose reputation is decided
anew each time. Only comments that are not paid yet take part.
-/

import Zattera.Lib.Table
import Zattera.Protocol.Types

namespace Zattera

open Program

/-! ### Objects -/

/-- `reputation_object` -/
structure Reputation where
  account : AccountName
  reputation : ShareType

/-- The reputations by account; an account without one counts as zero. -/
abbrev Reputations := Table AccountName Reputation Reputation.account

/-- The vote an operation casts. Its `rshares` are what the evaluator stores in the
`comment_vote_object` between the two notifications. -/
structure CastVote where
  voter : AccountName
  author : AccountName
  permlink : Text
  rshares : Int64

/-- The `by_comment_voter` index -/
def CastVote.key (vote : CastVote) : AccountName × AccountName × Text :=
  (vote.author, vote.voter, vote.permlink)

/-! ### The handlers -/

/-- Rule #1: a voter with a negative reputation does not affect another user's. -/
def Reputations.mayVote (reputations : Reputations) (voter : AccountName) : Bool :=
  match reputations.find? voter with
  | none => true
  | some voterRep => 0 ≤ voterRep.reputation

/-- Rule #2: to vote another user down, the voter must have more reputation than them. -/
def Reputations.outranks (reputations : Reputations) (cv : CastVote)
    (rival : Except ChainError ShareType) : Except ChainError Bool :=
  if cv.rshares < 0 then
    match reputations.find? cv.voter with
    | none => return false
    | some voterRep => return (← rival) < voterRep.reputation
  else return true

/-- `pre_operation_visitor`: take back what the vote gave. The rules are those of now, with the
author's reputation as it would be without the vote. -/
def Reputations.preOperation (reputations : Reputations) (cv : CastVote) :
    Except ChainError Reputations := do
  let repDelta := cv.rshares >>> 6
  match reputations.find? cv.author with
  | none => return reputations
  | some authorRep =>
    if reputations.mayVote cv.voter = false then return reputations
    if (← reputations.outranks cv (authorRep.reputation.sub repDelta)) = false then
      return reputations
    if repDelta = authorRep.reputation then return reputations.erase cv.author
    let reputation ← authorRep.reputation.sub repDelta
    return reputations.replace { authorRep with reputation }

/-- `post_operation_visitor`: count the vote. -/
def Reputations.postOperation (reputations : Reputations) (cv : CastVote) :
    Except ChainError Reputations := do
  let repDelta := cv.rshares >>> 6
  if reputations.mayVote cv.voter = false then return reputations
  match reputations.find? cv.author with
  | none =>
    if (← reputations.outranks cv (.ok 0)) = false then return reputations
    return reputations.insertNew ⟨cv.author, repDelta⟩
  | some authorRep =>
    if (← reputations.outranks cv (.ok authorRep.reputation)) = false then return reputations
    let reputation ← authorRep.reputation.add repDelta
    return reputations.replace { authorRep with reputation }

/-- Every exception of a handler is swallowed; neither changes anything before it throws. -/
def Reputations.swallowing (reputations : Reputations) (result : Except ChainError Reputations) :
    Reputations :=
  match result with
  | .ok changed => changed
  | .error _ => reputations

/-! ### Histories -/

/-- What happens to the comments that are not paid: a vote, or the end of a comment, with which its
votes are removed. -/
inductive VoteEvent where
  | vote (vote : CastVote)
  | close (author : AccountName) (permlink : Text)

/-- The reputations and the votes in force. -/
structure ReputationPlugin where
  reputations : Reputations := .empty
  votes : Table (AccountName × AccountName × Text) CastVote CastVote.key := .empty

/-- The reputations before a vote under this key counts. -/
def ReputationPlugin.withdrawn (plugin : ReputationPlugin)
    (key : AccountName × AccountName × Text) : Reputations :=
  match plugin.votes.find? key with
  | none => plugin.reputations
  | some cv => plugin.reputations.swallowing (plugin.reputations.preOperation cv)

/-- The reputations after a vote counted. -/
def Reputations.counted (reputations : Reputations) (cv : CastVote) : Reputations :=
  reputations.swallowing (reputations.postOperation cv)

def ReputationPlugin.step (plugin : ReputationPlugin) : VoteEvent → ReputationPlugin
  | .vote cv =>
    { reputations := (plugin.withdrawn cv.key).counted cv
      votes := (plugin.votes.insertNew cv).replace cv }
  | .close author permlink =>
    { plugin with votes := plugin.votes.filter fun cv => cv.author ≠ author ∨ cv.permlink ≠ permlink }

def ReputationPlugin.run (plugin : ReputationPlugin) (events : List VoteEvent) : ReputationPlugin :=
  events.foldl step plugin

/-- `reputation` as the rules read it. -/
def Reputations.of (reputations : Reputations) (account : AccountName) : Int :=
  match reputations.find? account with
  | none => 0
  | some rep => rep.reputation.toInt

end Zattera
