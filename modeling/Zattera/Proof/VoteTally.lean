/-
This file proves that a comment that has not been paid out keeps the tally of the
votes on it: its net shares are the sum of theirs, and its net votes are those for
it less those against it. A first vote adds to both, a changed vote adds what it
changes, and the votes on other comments have other numbers.
-/

import Mathlib.Algebra.Group.Prod
import Zattera.Proof.Contents
import Zattera.Proof.Duplicates

set_option synthInstance.maxSize 4096

namespace Zattera

open Program

variable {change : Int × Int} {o : VoteOperation} {power : VotePower}

/-! ### Polls -/

/-- What a vote counts for a comment: its shares, and one for or against it. -/
def CommentVote.tally (vote : CommentVote) (comment : Nat) : Int × Int :=
  if vote.comment = comment then (vote.rshares.toInt, vote.rshares.toInt.sign) else 0

/-- What all votes on a comment count. -/
def ChainState.tally (state : ChainState) (comment : Nat) : Int × Int :=
  state.commentVotes.total fun vote => vote.tally comment

/-- What is kept in a comment about the votes on it. -/
structure Poll where
  id : Nat
  key : AccountName × Text
  tallied : Int × Int
  cashoutTime : TimePointSec

def Comment.poll (comment : Comment) : Poll :=
  ⟨comment.id, comment.key, (comment.netRshares.toInt, comment.netVotes), comment.cashoutTime⟩

def ChainState.polls (state : ChainState) : List Poll := state.comments.objects.map Comment.poll

instance : SteadyView Comment.poll where
  key same := congrArg Poll.key same
  determined {first second} same := by
    change first.steady.poll = second.steady.poll
    rw [same]

/-- The poll after a vote on the comment under a key. -/
def Poll.count (poll : Poll) (key : AccountName × Text) (change : Int × Int) : Poll :=
  if poll.key = key then { poll with tallied := poll.tallied + change } else poll

theorem Comment.poll_count_self (comment : Comment) (change : Int × Int) :
    comment.poll.count comment.key change =
      { comment.poll with tallied := comment.poll.tallied + change } :=
  if_pos rfl

theorem Comment.poll_count_of_ne {comment : Comment} {key : AccountName × Text}
    (different : comment.key ≠ key) : comment.poll.count key change = comment.poll :=
  if_neg different

/-- Comments that have not been paid out have the tally of the votes on them, and only comments
that were given a number have votes. -/
structure ChainState.Tallied (state : ChainState) : Prop where
  given : ∀ vote ∈ state.commentVotes.objects, vote.comment < state.nextCommentId
  tally : ∀ poll ∈ state.polls, poll.cashoutTime ≠ TimePointSec.maximum →
    poll.tallied = state.tally poll.id

/-! ### Votes -/

/-- A vote on a comment, which changes its tally. -/
structure Counts (comment : Comment) (change : Int × Int) (s t : ChainState) : Prop where
  polls : t.polls = s.polls.map fun poll => poll.count comment.key change
  next : t.nextCommentId = s.nextCommentId
  tally : ∀ id, t.tally id = s.tally id + if comment.id = id then change else 0
  given : ∀ vote ∈ t.commentVotes.objects,
    vote.comment = comment.id ∨ ∃ old ∈ s.commentVotes.objects, old.comment = vote.comment

section Votes

variable {s t : ChainState} {u : Unit} {comment : Comment}

theorem ChainState.Numbered.eq_of_id (numbered : s.Numbered) {first second : Comment}
    (firstStored : first ∈ s.comments.objects) (secondStored : second ∈ s.comments.objects)
    (same : first.id = second.id) : first = second :=
  List.inj_on_of_nodup_map numbered.distinct firstStored secondStored same

theorem tallied_of_counts (numbered : s.Numbered) (tallied : s.Tallied)
    (stored : comment ∈ s.comments.objects) (counts : Counts comment change s t) : t.Tallied := by
  refine ⟨fun vote member => ?_, fun poll member unpaid => ?_⟩
  · rw [counts.next]
    rcases counts.given vote member with isComment | ⟨old, oldMember, same⟩
    · rw [isComment]
      exact numbered.below _ (List.mem_map_of_mem stored)
    · rw [← same]
      exact tallied.given old oldMember
  · rw [counts.polls] at member
    obtain ⟨old, oldMember, rfl⟩ := List.mem_map.mp member
    obtain ⟨other, otherStored, rfl⟩ := List.mem_map.mp oldMember
    by_cases same : other.key = comment.key
    · obtain rfl : other = comment :=
        List.inj_on_of_nodup_map s.comments.distinct otherStored stored same
      rw [Comment.poll_count_self] at unpaid ⊢
      have before := tallied.tally other.poll oldMember unpaid
      have after := counts.tally other.id
      rw [if_pos rfl] at after
      exact (congrArg (· + change) before).trans after.symm
    · have different : comment.id ≠ other.id := fun equal =>
        same (congrArg Comment.key (numbered.eq_of_id stored otherStored equal)).symm
      rw [Comment.poll_count_of_ne same] at unpaid ⊢
      have before := tallied.tally other.poll oldMember unpaid
      have after := counts.tally other.id
      rw [if_neg different, add_zero] at after
      exact before.trans after.symm

theorem polls_putComment {changed : Comment} {middle : ChainState}
    (stored : comment ∈ s.comments.objects)
    (added : changed.poll = comment.poll.count comment.key change)
    (put : putComment changed s = .ok u middle) :
    middle.polls = s.polls.map fun poll => poll.count comment.key change := by
  obtain rfl := modify_eq_ok.mp put
  have sameKey : changed.key = comment.key := by
    rw [Comment.poll_count_self] at added
    exact congrArg Poll.key added
  show List.map _ (List.map _ _) = List.map _ (List.map _ _)
  rw [List.map_map, List.map_map]
  refine List.map_congr_left fun old member => ?_
  rw [Function.comp_apply, Function.comp_apply, sameKey]
  by_cases same : old.key = comment.key
  · obtain rfl : old = comment :=
      List.inj_on_of_nodup_map s.comments.distinct member stored same
    rw [if_pos rfl, added]
  · rw [if_neg same, Comment.poll_count_of_ne same]

/-- The way both kinds of votes go: the voter is changed, then the comment, and what follows does
not show in polls. -/
theorem Counts.of_put {changed : Comment} {spent middle : ChainState}
    (stored : comment ∈ s.comments.objects) (before : Within [.accounts] s spent)
    (added : changed.poll = comment.poll.count comment.key change)
    (put : putComment changed spent = .ok u middle)
    (after : t.seen Comment.poll = middle.seen Comment.poll)
    (tally : ∀ id, t.tally id = s.tally id + if comment.id = id then change else 0)
    (given : ∀ vote ∈ t.commentVotes.objects,
      vote.comment = comment.id ∨ ∃ old ∈ s.commentVotes.objects, old.comment = vote.comment) :
    Counts comment change s t := by
  have sameComments : spent.comments = s.comments := before .comments (by decide)
  have sameNext : spent.nextCommentId = s.nextCommentId := before .nextCommentId (by decide)
  have storedStill : comment ∈ spent.comments.objects := sameComments ▸ stored
  have polls : t.polls = middle.polls := congrArg Prod.fst after
  have next : t.nextCommentId = middle.nextCommentId := congrArg (·.2.1) after
  refine ⟨?_, ?_, tally, given⟩
  · rw [polls, polls_putComment storedStill added put]
    unfold ChainState.polls
    rw [sameComments]
  · rw [next, ← modify_eq_ok.mp put]
    exact sameNext

/-- The shares of a first vote are not zero, so it counts for or against the comment. -/
theorem netVotes_castVote {rshares : Int64} (nonzero : rshares.toInt ≠ 0) (netVotes : Int) :
    (if 0 < rshares then netVotes + 1 else netVotes - 1) = netVotes + rshares.toInt.sign := by
  split
  · next positive =>
    rw [Int64.lt_iff_toInt_lt] at positive
    rw [Int.sign_eq_one_of_pos positive]
  · next small =>
    rw [Int64.lt_iff_toInt_lt] at small
    have negative : rshares.toInt < 0 := lt_of_le_of_ne (not_lt.mp small) nonzero
    rw [Int.sign_eq_neg_one_of_neg negative]
    rfl

theorem VotePower.rshares_ne_zero (positive : 0 < power.absRshares) (weight : Int) :
    (power.rshares weight).toInt ≠ 0 := by
  have nonzero : power.absRshares ≠ 0 := fun zero => by
    rw [zero] at positive
    exact absurd positive (by decide)
  rw [← Int64.toInt_zero, Ne, Int64.toInt_inj]
  unfold VotePower.rshares
  split
  · refine fun negated => nonzero ?_
    rw [← @Int64.neg_neg power.absRshares, negated]
    rfl
  · exact nonzero

theorem counts_castVote {voter : Account} {now : TimePointSec}
    (stored : comment ∈ s.comments.objects) (run : castVote o comment voter power now s = .ok u t) :
    Counts comment ((power.rshares o.weight).toInt, (power.rshares o.weight).toInt.sign) s t := by
  simp only [castVote, bind_eq_ok, require_eq_ok, lift_eq_ok, ShareType.add_eq_ok,
    getCommentById_eq_ok, and_assoc, exists_and_left, exists_eq_left', exists_const] at run
  obtain ⟨_, _, _, inTime, _, spent, paid, positive, net, exactNet, _, _, _, _, _, middle, put, _,
    rooted, addedToRoot, maxWeight, _, weighed, _, recorded, cast, voted, found, counted⟩ := run
  obtain rfl := unmoved inTime
  obtain rfl := unmoved weighed
  have before : Within [.accounts] s spent := Respects.related _ _ _ paid
  have putWithin : Within [.comments] spent middle := Respects.related _ _ _ put
  have rootWithin : Within [.comments] middle rooted := Respects.related _ _ _ addedToRoot
  have member : voted.poll ∈ recorded.polls :=
    List.mem_map_of_mem (List.mem_of_find?_eq_some found)
  have seenRoot : rooted.seen Comment.poll = middle.seen Comment.poll :=
    seen_eq inferInstance addedToRoot
  have seenRecorded : recorded.seen Comment.poll = rooted.seen Comment.poll :=
    seen_eq inferInstance cast
  have seenLast : t.seen Comment.poll = recorded.seen Comment.poll :=
    seen_eq (stays_putTotalVoteWeight member _) counted
  obtain ⟨votes, inserted, isRecorded⟩ := create_eq_ok.mp cast
  have sameVotes : rooted.commentVotes = s.commentVotes :=
    (rootWithin .commentVotes (by decide)).trans
      ((putWithin .commentVotes (by decide)).trans (before .commentVotes (by decide)))
  rw [sameVotes] at inserted
  have added : t.commentVotes = votes := by
    rw [← modify_eq_ok.mp counted, ← isRecorded]
  refine .of_put stored before ?_ put (seenLast.trans (seenRecorded.trans seenRoot))
    (fun id => ?_) fun vote stored => ?_
  · rw [Comment.poll_count_self, Comment.poll, exactNet,
      netVotes_castVote (VotePower.rshares_ne_zero positive _)]
    rfl
  · unfold ChainState.tally
    rw [added, Table.total_insert? _ inserted]
    rfl
  · rw [added] at stored
    rcases (Table.mem_of_insert? inserted).mp stored with old | rfl
    · exact .inr ⟨vote, old, rfl⟩
    · exact .inl rfl

theorem tally_replace {vote changed : CommentVote}
    (cast : s.commentVotes.find? (vote.comment, vote.voter) = some vote)
    (sameComment : changed.comment = vote.comment) (sameVoter : changed.voter = vote.voter)
    (id : Nat) :
    ((s.commentVotes.replace changed).total fun vote => vote.tally id) =
      s.tally id + if vote.comment = id then (changed.rshares.toInt - vote.rshares.toInt,
        changed.rshares.toInt.sign - vote.rshares.toInt.sign) else 0 := by
  rw [← sameComment, ← sameVoter] at cast
  rw [Table.total_replace _ cast, sub_add, ← ChainState.tally, sub_eq_add_neg, neg_sub]
  refine congrArg _ ?_
  unfold CommentVote.tally
  rw [sameComment]
  split
  · rfl
  · exact sub_zero _

theorem counts_changeVote {voter : Account} {vote : CommentVote} {now : TimePointSec}
    (stored : comment ∈ s.comments.objects)
    (cast : s.commentVotes.find? (comment.id, voter.name) = some vote)
    (run : changeVote o comment voter power vote now s = .ok u t) :
    Counts comment ((power.rshares o.weight).toInt - vote.rshares.toInt,
      (power.rshares o.weight).toInt.sign - vote.rshares.toInt.sign) s t := by
  simp only [changeVote, bind_eq_ok, require_eq_ok, lift_eq_ok, ShareType.add_eq_ok,
    ShareType.sub_eq_ok, getCommentById_eq_ok, and_assoc, exists_and_left,
    exists_eq_left', exists_const] at run
  obtain ⟨_, _, _, _, inTime, _, spent, paid, without, exactWithout, net, exactNet, _, _, _, middle,
    put, _, rooted, addedToRoot, voted, found, _, weighed, discounted, written⟩ := run
  obtain rfl := unmoved inTime
  have before : Within [.accounts] s spent := Respects.related _ _ _ paid
  have putWithin : Within [.comments] spent middle := Respects.related _ _ _ put
  have rootWithin : Within [.comments] middle rooted := Respects.related _ _ _ addedToRoot
  have sameVotes : weighed.commentVotes = s.commentVotes := by
    rw [← modify_eq_ok.mp discounted]
    exact (rootWithin .commentVotes (by decide)).trans
      ((putWithin .commentVotes (by decide)).trans (before .commentVotes (by decide)))
  have member : voted.poll ∈ rooted.polls :=
    List.mem_map_of_mem (List.mem_of_find?_eq_some found)
  have seenRoot : rooted.seen Comment.poll = middle.seen Comment.poll :=
    seen_eq inferInstance addedToRoot
  have seenWeighed : weighed.seen Comment.poll = rooted.seen Comment.poll :=
    seen_eq (stays_putTotalVoteWeight member _) discounted
  have seenLast : t.seen Comment.poll = weighed.seen Comment.poll := seen_eq inferInstance written
  have changed := congrArg ChainState.commentVotes (modify_eq_ok.mp written)
  dsimp only at changed
  rw [sameVotes] at changed
  obtain ⟨_, sameKey⟩ := Table.find?_eq_some_iff.mp cast
  obtain ⟨isComment, isVoter⟩ := Prod.mk.inj sameKey
  rw [← isComment, ← isVoter] at cast
  refine .of_put stored before ?_ put (seenLast.trans (seenWeighed.trans seenRoot))
    (fun id => ?_) fun other stored => ?_
  · have total : net.toInt = comment.netRshares.toInt +
        ((power.rshares o.weight).toInt - vote.rshares.toInt) := by omega
    rw [Comment.poll_count_self, Comment.poll, total]
    rfl
  · rw [ChainState.tally, ← changed]
    refine (tally_replace cast ?_ ?_ id).trans ?_
    · rfl
    · rfl
    · rw [isComment]
  · rw [← changed] at stored
    rcases Table.mem_replace.mp stored with ⟨old, _⟩ | ⟨rfl, _⟩
    · exact .inr ⟨other, old, rfl⟩
    · exact .inl isComment

/-- An accepted vote is on a comment that has been paid out, or takes power from the voter and is
cast or changed. -/
theorem voteEvaluator_spec (run : voteEvaluator o s = .ok u t) :
    ∃ comment voter, s.comments.find? (o.author, cString o.permlink) = some comment ∧
      s.accounts.find? o.voter = some voter ∧
      ((comment.cashoutTime = TimePointSec.maximum ∧ s = t) ∨
        (comment.cashoutTime ≠ TimePointSec.maximum ∧
          ∃ power, votePower voter s.dgp o.weight = .ok power ∧
            (castVote o comment voter power s.dgp.time s = .ok () t ∨
              ∃ vote, s.commentVotes.find? (comment.id, voter.name) = some vote ∧
                changeVote o comment voter power vote s.dgp.time s = .ok () t))) := by
  simp only [voteEvaluator, bind_eq_ok, getComment_eq_ok, getAccount_eq_ok, require_eq_ok,
    get_eq_ok, and_assoc, exists_and_left, exists_eq_left', exists_const] at run
  obtain ⟨comment, found, voter, isVoter, _, _, _, allowed, run⟩ := run
  obtain rfl := unmoved allowed
  refine ⟨comment, voter, found, isVoter, ?_⟩
  split at run
  · next paid => exact .inl ⟨paid, (pure_eq_ok.mp run).2⟩
  · next unpaid =>
    obtain ⟨power, _, computed, run⟩ := bind_eq_ok.mp run
    obtain ⟨isPower, rfl⟩ := lift_eq_ok.mp computed
    refine .inr ⟨unpaid, power, isPower, ?_⟩
    cases cast : s.commentVotes.find? (comment.id, voter.name) with
    | none =>
      rw [cast] at run
      exact .inl run
    | some vote =>
      rw [cast] at run
      obtain ⟨_, _, lasting, run⟩ := bind_eq_ok.mp run
      obtain ⟨_, rfl⟩ := require_eq_ok.mp lasting
      exact .inr ⟨vote, rfl, run⟩

theorem tallied_voteEvaluator (numbered : s.Numbered) (tallied : s.Tallied)
    (run : voteEvaluator o s = .ok u t) : t.Tallied := by
  obtain ⟨comment, voter, found, _, ⟨_, rfl⟩ | ⟨_, power, _, voted⟩⟩ := voteEvaluator_spec run
  · exact tallied
  · have stored : comment ∈ s.comments.objects := Table.mem_of_find? found
    rcases voted with cast | ⟨vote, isVote, changed⟩
    · exact tallied_of_counts numbered tallied stored (counts_castVote stored cast)
    · exact tallied_of_counts numbered tallied stored (counts_changeVote stored isVote changed)

end Votes

/-! ### Comments that come and go -/

section Changes

variable {s t : ChainState} {u : Unit}

theorem ChainState.Tallied.congr (tallied : s.Tallied) (polls : t.polls = s.polls)
    (next : t.nextCommentId = s.nextCommentId) (votes : t.commentVotes = s.commentVotes) :
    t.Tallied := by
  refine ⟨?_, fun poll member unpaid => ?_⟩
  · rw [votes, next]
    exact tallied.given
  · rw [ChainState.tally, votes]
    exact tallied.tally poll (polls ▸ member) unpaid

/-- The tally of comments other than the one whose votes are removed. -/
theorem tally_withoutVotes {gone id : Nat} (different : id ≠ gone) :
    (s.withoutVotes gone).tally id = s.tally id := by
  refine Table.total_filter fun vote _ dropped => if_neg fun isVoted => ?_
  rw [decide_eq_false_iff_not, not_not] at dropped
  exact different (isVoted.symm.trans dropped)

theorem Comment.poll_children (comment : Comment) (children : Nat) :
    Comment.poll { comment with children := children } = comment.poll := rfl

theorem tallied_commentEvaluator {o : CommentOperation} (tallied : s.Tallied)
    (run : commentEvaluator o s = .ok u t) : t.Tallied := by
  obtain ⟨author, parent, found, ⟨_, created⟩ | ⟨comment, _, edited⟩⟩ := commentEvaluator_spec run
  · obtain ⟨polls, next, _, votes⟩ := seen_createComment Comment.poll_children found created
    refine ⟨fun vote member => ?_, fun poll member unpaid => ?_⟩
    · rw [next]
      rw [votes] at member
      exact Nat.lt_succ_of_lt (tallied.given vote member)
    · rw [ChainState.tally, votes]
      rw [ChainState.polls, polls] at member
      rcases List.mem_append.mp member with old | new
      · exact tallied.tally poll old unpaid
      · obtain rfl := List.mem_singleton.mp new
        refine (Table.total_eq_zero fun vote cast => if_neg ?_).symm
        exact (tallied.given vote cast).ne
  · obtain ⟨_, _, _, _, _, _, rfl⟩ := editComment_spec edited
    exact tallied.congr rfl rfl rfl

theorem tallied_deleteComment {o : DeleteCommentOperation} (numbered : s.Numbered)
    (tallied : s.Tallied) (run : deleteCommentEvaluator o s = .ok u t) : t.Tallied := by
  obtain ⟨comment, found, _, polls, next, _, votes⟩ := seen_deleteComment Comment.poll_children run
  have stored : comment ∈ s.comments.objects := Table.mem_of_find? found
  refine ⟨fun vote member => ?_, fun poll member unpaid => ?_⟩
  · rw [next]
    rw [votes] at member
    exact tallied.given vote (List.mem_of_mem_filter member)
  · rw [ChainState.polls, polls] at member
    obtain ⟨other, kept, rfl⟩ := List.mem_map.mp member
    obtain ⟨otherStored, different⟩ := Table.mem_erase.mp kept
    have apart : other.id ≠ comment.id := fun equal =>
      different (congrArg Comment.key (numbered.eq_of_id otherStored stored equal))
    have before := tallied.tally other.poll (List.mem_map_of_mem otherStored) unpaid
    rw [ChainState.tally, votes]
    exact before.trans (tally_withoutVotes apart).symm

/-- A payout closes the poll of the comment. -/
theorem tallied_cashoutCommentHelper {recentClaims : UInt128} {rewardBalance claimed : ShareType}
    {key : AccountName × Text} (numbered : s.Numbered) (tallied : s.Tallied)
    (run : cashoutCommentHelper recentClaims rewardBalance key s = .ok claimed t) : t.Tallied := by
  simp only [cashoutCommentHelper, bind_eq_ok, get_eq_ok, lookup_eq_ok, headBlockTime_eq_ok,
    modify_eq_ok, pure_eq_ok, putComment, and_assoc, exists_and_left, exists_eq_left',
    exists_const] at run
  obtain ⟨comment, found, fund, _, _, middle, rewarded, paid, paidFound, _, rfl⟩ := run
  have seen : middle.seen Comment.poll = s.seen Comment.poll := seen_eq inferInstance rewarded
  have polls : middle.polls = s.polls := congrArg Prod.fst seen
  have next : middle.nextCommentId = s.nextCommentId := congrArg (·.2.1) seen
  have within : Within [.accounts, .dgp, .comments] s middle := Respects.related _ _ _ rewarded
  have votes : middle.commentVotes = s.commentVotes := within .commentVotes (by decide)
  obtain ⟨stored, isKey⟩ := Table.find?_eq_some_iff.mp found
  refine ⟨fun vote member => ?_, fun poll member unpaid => ?_⟩
  · change vote.comment < middle.nextCommentId
    rw [next]
    have kept : vote ∈ middle.commentVotes.objects := List.mem_of_mem_filter member
    exact tallied.given vote (votes ▸ kept)
  · obtain ⟨other, otherStored, rfl⟩ := List.mem_map.mp member
    rcases Table.mem_replace.mp otherStored with ⟨old, different⟩ | ⟨rfl, _⟩
    · have shown : other.poll ∈ s.polls := polls ▸ List.mem_map_of_mem old
      obtain ⟨same, sameStored, alike⟩ := List.mem_map.mp shown
      have apart : other.id ≠ comment.id := fun equal => by
        have sameId : same.id = comment.id := (congrArg Poll.id alike).trans equal
        have sameKey : same.key = other.key := congrArg Poll.key alike
        rw [numbered.eq_of_id sameStored stored sameId, isKey] at sameKey
        exact different (sameKey.symm.trans (Table.key_of_find? paidFound).symm)
      have sameTally : middle.tally other.id = s.tally other.id := by
        unfold ChainState.tally
        rw [votes]
      have before := tallied.tally other.poll shown unpaid
      show other.poll.tallied = (middle.withoutVotes comment.id).tally other.id
      exact before.trans (sameTally.symm.trans (tally_withoutVotes apart).symm)
    · exact absurd rfl unpaid

/-- Comments have numbers of their own and the tally of the votes on them. -/
def ChainState.Polled (state : ChainState) : Prop := state.Numbered ∧ state.Tallied

theorem ChainState.Polled.congr (polled : s.Polled)
    (same : ∀ part ∈ .commentVotes :: Part.ofComments, part.get t = part.get s) : t.Polled := by
  have comments : t.comments = s.comments := same .comments (by decide)
  have next : t.nextCommentId = s.nextCommentId := same .nextCommentId (by decide)
  have contents : t.commentContents = s.commentContents := same .commentContents (by decide)
  refine ⟨polled.1.congr ?_ next ?_, polled.2.congr ?_ next (same .commentVotes (by decide))⟩
  · exact congrArg (·.objects.map Comment.id) comments
  · exact congrArg (·.objects.map CommentContent.comment) contents
  · exact congrArg (·.objects.map Comment.poll) comments

theorem numbered_of_lasting (same : t.seen Comment.lasting = s.seen Comment.lasting)
    (numbered : s.Numbered) : t.Numbered := by
  obtain ⟨ids, next, contents⟩ := ids_of_lasting same
  exact numbered.congr ids next contents

instance (priority := low) {α : Type} (x : Chain α)
    [within : Respects (Within [.dgp, .accounts, .witnesses, .rewardFunds]) x] :
    Respects (Keeping ChainState.Polled) x :=
  respects_of_within within (fun _ _ same polled => polled.congr same) (by decide)

instance (recentClaims : UInt128) (rewardBalance : ShareType) (key : AccountName × Text) :
    Respects (Keeping ChainState.Polled) (cashoutCommentHelper recentClaims rewardBalance key) where
  related _ _ _ run polled :=
    ⟨numbered_of_lasting (seen_eq inferInstance run) polled.1,
      tallied_cashoutCommentHelper polled.1 polled.2 run⟩

instance (recentClaims : UInt128) (rewardBalance : ShareType) (due : List Comment)
    (awarded : ShareType) :
    Respects (Keeping ChainState.Polled) (cashoutEach recentClaims rewardBalance due awarded) := by
  induction due generalizing awarded with
  | nil => exact Respects.pure _
  | cons comment rest inductionHypothesis =>
    unfold cashoutEach
    infer_instance

instance : Respects (Keeping ChainState.Polled) processCommentCashout := by
  dsimp only [processCommentCashout]
  infer_instance

instance (o : VoteOperation) : Respects (Keeping ChainState.Polled) (voteEvaluator o) where
  related _ _ _ run polled :=
    ⟨numbered_of_lasting (seen_eq inferInstance run) polled.1,
      tallied_voteEvaluator polled.1 polled.2 run⟩

instance (o : CommentOptionsOperation) :
    Respects (Keeping ChainState.Polled) (commentOptionsEvaluator o) where
  related s a t run polled := by
    have seen : t.seen Comment.poll = s.seen Comment.poll := seen_eq inferInstance run
    have options : Respects (Within [.comments]) (commentOptionsEvaluator o) :=
      inferInstanceAs (Respects (Within (Operation.commentOptions o).footprint)
        (applyOperation false (.commentOptions o)))
    have votes : t.commentVotes = s.commentVotes :=
      options.related _ _ _ run .commentVotes (by decide)
    exact ⟨numbered_of_lasting (seen_eq inferInstance run) polled.1,
      polled.2.congr (congrArg Prod.fst seen) (congrArg (·.2.1) seen) votes⟩

theorem polled_commentEvaluator {o : CommentOperation} :
    Respects (Keeping ChainState.Polled) (commentEvaluator o) where
  related _ _ _ run polled :=
    ⟨numbered_commentEvaluator.related _ _ _ run polled.1, tallied_commentEvaluator polled.2 run⟩

theorem polled_deleteCommentEvaluator {o : DeleteCommentOperation} :
    Respects (Keeping ChainState.Polled) (deleteCommentEvaluator o) where
  related _ _ _ run polled :=
    ⟨numbered_deleteCommentEvaluator.related _ _ _ run polled.1,
      tallied_deleteComment polled.1 polled.2 run⟩

theorem polled_run {step : ChainStep} (validated : step.validated) :
    Respects (Keeping ChainState.Polled) step.run := by
  refine respects_run_of_watched validated (fun _ _ same polled => polled.congr same)
    (fun producing op member valid touched => ?_) (fun blockStep touched => ?_) (by decide)
  · cases op with
    | vote o => exact inferInstanceAs (Respects (Keeping ChainState.Polled) (voteEvaluator o))
    | comment o => exact polled_commentEvaluator
    | deleteComment o => exact polled_deleteCommentEvaluator
    | commentOptions o =>
      exact inferInstanceAs (Respects (Keeping ChainState.Polled) (commentOptionsEvaluator o))
    | _ => exact absurd touched (of_decide_eq_false rfl)
  · cases blockStep with
    | commentCashout =>
      exact inferInstanceAs (Respects (Keeping ChainState.Polled) processCommentCashout)
    | _ => exact absurd touched (of_decide_eq_false rfl)

end Changes

/-! ### Tallies -/

/-- The votes on a comment. -/
def ChainState.votesOn (state : ChainState) (comment : Comment) : List CommentVote :=
  state.commentVotes.objects.filter fun vote => decide (vote.comment = comment.id)

theorem sum_tally (votes : List CommentVote) (comment : Nat) :
    (votes.map fun vote => vote.tally comment).sum =
      (((votes.filter fun vote => decide (vote.comment = comment)).map
          fun vote => vote.rshares.toInt).sum,
        ((votes.filter fun vote => decide (vote.comment = comment)).map
          fun vote => vote.rshares.toInt.sign).sum) := by
  induction votes with
  | nil => rfl
  | cons vote votes ih =>
    rw [List.map_cons, List.sum_cons, ih, List.filter_cons]
    by_cases same : vote.comment = comment
    · rw [if_pos (decide_eq_true same), CommentVote.tally, if_pos same]
      rfl
    · rw [if_neg (by simpa using same), CommentVote.tally, if_neg same, zero_add]

/-- Signs add up to the number of positive numbers less the number of negative ones. -/
theorem sum_sign (votes : List CommentVote) :
    (votes.map fun vote => vote.rshares.toInt.sign).sum =
      (votes.countP fun vote => decide (0 < vote.rshares.toInt) : Int) -
        votes.countP fun vote => decide (vote.rshares.toInt < 0) := by
  induction votes with
  | nil => rfl
  | cons vote votes ih =>
    rw [List.map_cons, List.sum_cons, ih, List.countP_cons, List.countP_cons]
    rcases lt_trichotomy vote.rshares.toInt 0 with against | none | pro
    · rw [Int.sign_eq_neg_one_of_neg against]
      simp [against, not_lt.mpr against.le]
      omega
    · simp [none]
    · rw [Int.sign_eq_one_of_pos pro]
      simp [pro, not_lt.mpr pro.le]
      omega

theorem polled_of_reachable {liquid dollar : ShareType} {state : ChainState}
    (reached : Reachable (initGenesis liquid dollar) state) : state.Polled := by
  have start : (initGenesis liquid dollar).Polled :=
    ⟨numbered_initGenesis liquid dollar, fun _ member => (nomatch member),
      fun _ member => (nomatch member)⟩
  refine @ReachableBy.invariant _ _ ChainState.Polled start
    (fun before after step polled validated _ accepted => ?_) _ reached
  exact (polled_run validated).related before _ after accepted polled

/-- The genesis account takes vests, and in the next block posts and votes for its post. -/
def postVotingBlocks : List SignedBlock :=
  let vest : TransferToVestingOperation :=
    ⟨AccountName.genesis, AccountName.genesis, ⟨1000000, .liquid⟩⟩
  let vote : VoteOperation := ⟨AccountName.genesis, AccountName.genesis, [98], 10000⟩
  let first := genesisBlock default [genesisTransaction [.transferToVesting vest]]
  [first, genesisBlock first.id
    [{ genesisTransaction [.comment genesisPost, .vote vote] with id := 2 }]]

end Zattera
