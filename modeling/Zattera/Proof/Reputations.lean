/-
This file proves when the reputation plugin takes back exactly what a vote had
given. Both handlers move the reputation of the author by the same amount or not
at all, so the amounts agree exactly when the rules decide about the vote now as
they did when it was cast. They need not: a vote that had no effect when it was
cast is taken back later, if its voter has gained reputation since.
-/

import Zattera.Plugin.Reputation

namespace Zattera

open Program

namespace Reputations

variable {reputations : Reputations} {cv : CastVote}

/-! ### The rules as conditions -/

/-- To vote down the voter has more reputation than the rival value. -/
def Outranks (reputations : Reputations) (cv : CastVote) (rival : Int) : Prop :=
  cv.rshares < 0 →
    ∃ voterRep, reputations.find? cv.voter = some voterRep ∧ rival < voterRep.reputation.toInt

/-- A vote counts if its voter may vote and outranks the author, and the sum can be stored. -/
def Counts (reputations : Reputations) (cv : CastVote) : Prop :=
  reputations.mayVote cv.voter = true ∧ reputations.Outranks cv (reputations.of cv.author) ∧
    -2 ^ 63 ≤ reputations.of cv.author + (cv.rshares >>> 6).toInt ∧
    reputations.of cv.author + (cv.rshares >>> 6).toInt < 2 ^ 63

/-- A vote is taken back if the author has a reputation and the voter may vote and outranks what the
author has without the vote. -/
def Withdraws (reputations : Reputations) (cv : CastVote) : Prop :=
  (reputations.find? cv.author).isSome ∧ reputations.mayVote cv.voter = true ∧
    reputations.Outranks cv (reputations.of cv.author - (cv.rshares >>> 6).toInt) ∧
    -2 ^ 63 ≤ reputations.of cv.author - (cv.rshares >>> 6).toInt ∧
    reputations.of cv.author - (cv.rshares >>> 6).toInt < 2 ^ 63

theorem outranks_ok (reputations : Reputations) (cv : CastVote) (rival : ShareType) :
    ∃ above, reputations.outranks cv (.ok rival) = .ok above ∧
      (above = true ↔ reputations.Outranks cv rival.toInt) := by
  unfold outranks Outranks
  split
  · next down =>
    cases found : reputations.find? cv.voter with
    | none => exact ⟨false, rfl, by simp [down]⟩
    | some voterRep => exact ⟨_, rfl, by simp [down, Int64.lt_iff_toInt_lt]⟩
  · next up => exact ⟨true, rfl, by simp [up]⟩

theorem of_find? {author : AccountName} {rep : Reputation}
    (found : reputations.find? author = some rep) :
    reputations.of author = rep.reputation.toInt := by
  rw [of, found]

theorem of_replace {author : AccountName} {rep : Reputation}
    (found : reputations.find? author = some rep) (reputation : ShareType) :
    Reputations.of (reputations.replace { rep with reputation }) author = reputation.toInt := by
  obtain rfl := Table.key_of_find? found
  exact of_find? (@Table.find?_replace_self _ _ _ _ { rep with reputation } _ _ found)

/-! ### What the handlers do -/

/-- The handler takes back the whole vote or nothing. -/
theorem of_preOperation (reputations : Reputations) (cv : CastVote) :
    (reputations.Withdraws cv →
      (reputations.swallowing (reputations.preOperation cv)).of cv.author =
        reputations.of cv.author - (cv.rshares >>> 6).toInt) ∧
      (¬ reputations.Withdraws cv →
        reputations.swallowing (reputations.preOperation cv) = reputations) := by
  unfold Withdraws preOperation
  cases found : reputations.find? cv.author with
  | none => exact ⟨fun withdraws => by simp at withdraws, fun _ => rfl⟩
  | some authorRep =>
    rw [of_find? found]
    cases may : reputations.mayVote cv.voter with
    | false => exact ⟨fun withdraws => by simp at withdraws, fun _ => rfl⟩
    | true =>
      cases made : authorRep.reputation.sub (cv.rshares >>> 6) with
      | error e =>
        -- The difference is out of range, and it is formed whenever it decides.
        have range := mt ShareType.exists_checked_eq_ok.mpr (by
          rintro ⟨reputation, finished⟩
          rw [← ShareType.sub, made] at finished
          cases finished)
        have unequal : cv.rshares >>> 6 ≠ authorRep.reputation := by
          intro same
          rw [same] at range
          omega
        refine ⟨fun withdraws => by omega, fun _ => ?_⟩
        cases outcome : reputations.outranks cv (.error e) with
        | error e' =>
          simp [outcome, made, swallowing, bind, Except.bind]
        | ok above =>
          cases above <;>
            simp [outcome, made, unequal, swallowing, bind, Except.bind, pure, Except.pure]
      | ok reputation =>
        have isDifference := ShareType.sub_eq_ok.mp made
        have upper := reputation.toInt_lt
        have lower := reputation.le_toInt
        obtain ⟨above, compared, isAbove⟩ := outranks_ok reputations cv reputation
        rw [isDifference] at isAbove
        cases above with
        | false =>
          have below := mt isAbove.mpr (by decide)
          exact ⟨fun withdraws => absurd withdraws.2.2.1 below, fun _ => by
            simp [compared, made, swallowing, bind, Except.bind, pure, Except.pure]⟩
        | true =>
          have outranked := isAbove.mp rfl
          refine ⟨fun _ => ?_, fun not => absurd ⟨rfl, rfl, outranked, by omega, by omega⟩ not⟩
          by_cases same : cv.rshares >>> 6 = authorRep.reputation
          · have erased : Reputations.of (reputations.erase cv.author) cv.author = 0 := by
              rw [of, Table.find?_erase_self]
            simp only [compared, made, if_pos same, swallowing, bind, Except.bind, pure, Except.pure,
              Bool.true_eq_false, if_false, erased]
            rw [same, Int.sub_self]
          · simp [compared, made, same, swallowing, bind, Except.bind, pure, Except.pure,
              of_replace found, isDifference]

/-- The handler counts the whole vote or nothing. -/
theorem of_postOperation (reputations : Reputations) (cv : CastVote) :
    (reputations.Counts cv →
      (reputations.counted cv).of cv.author =
        reputations.of cv.author + (cv.rshares >>> 6).toInt) ∧
      (¬ reputations.Counts cv → reputations.counted cv = reputations) := by
  unfold Counts counted postOperation
  cases may : reputations.mayVote cv.voter with
  | false => exact ⟨fun counts => by simp at counts, fun _ => rfl⟩
  | true =>
    cases found : reputations.find? cv.author with
    | none =>
      have isZero : reputations.of cv.author = 0 := by rw [of, found]
      have upper := (cv.rshares >>> 6).toInt_lt
      have lower := (cv.rshares >>> 6).le_toInt
      obtain ⟨above, compared, isAbove⟩ := outranks_ok reputations cv 0
      rw [isZero]
      cases above with
      | false =>
        have below := mt isAbove.mpr (by decide)
        exact ⟨fun counts => absurd counts.2.1 below, fun _ => by
          simp [compared, swallowing, bind, Except.bind, pure, Except.pure]⟩
      | true =>
        refine ⟨fun _ => ?_, fun not => absurd ⟨rfl, isAbove.mp rfl, by omega, by omega⟩ not⟩
        have created : Reputations.of (reputations.insertNew ⟨cv.author, cv.rshares >>> 6⟩)
            cv.author = (cv.rshares >>> 6).toInt := by
          rw [of, Table.find?_insertNew, if_pos rfl, found]
          rfl
        simp [compared, swallowing, bind, Except.bind, pure, Except.pure, created]
    | some authorRep =>
      rw [of_find? found]
      obtain ⟨above, compared, isAbove⟩ := outranks_ok reputations cv authorRep.reputation
      cases above with
      | false =>
        have below := mt isAbove.mpr (by decide)
        exact ⟨fun counts => absurd counts.2.1 below, fun _ => by
          simp [compared, swallowing, bind, Except.bind, pure, Except.pure]⟩
      | true =>
        cases made : authorRep.reputation.add (cv.rshares >>> 6) with
        | error e =>
          have range := mt ShareType.exists_checked_eq_ok.mpr (by
            rintro ⟨reputation, finished⟩
            rw [← ShareType.add, made] at finished
            cases finished)
          exact ⟨fun counts => by omega, fun _ => by
            simp [compared, made, swallowing, bind, Except.bind]⟩
        | ok reputation =>
          have isSum := ShareType.add_eq_ok.mp made
          have upper := reputation.toInt_lt
          have lower := reputation.le_toInt
          refine ⟨fun _ => ?_, fun not => absurd ⟨rfl, isAbove.mp rfl, by omega, by omega⟩ not⟩
          simp [compared, made, swallowing, bind, Except.bind, pure, Except.pure,
            of_replace found, isSum]

end Reputations

/-! ### The vote in force -/

/-- The event replaces or removes the vote under a key. -/
def VoteEvent.Touches (key : AccountName × AccountName × Text) : VoteEvent → Prop
  | .vote cv => cv.key = key
  | .close author permlink => key.1 = author ∧ key.2.2 = permlink

namespace ReputationPlugin

variable {plugin : ReputationPlugin} {cv : CastVote}

theorem find?_step_vote : (plugin.step (.vote cv)).votes.find? cv.key = some cv := by
  have present : (plugin.votes.insertNew cv).find? cv.key = _ :=
    Table.find?_insertNew.trans (if_pos rfl)
  exact Table.find?_replace_self present

theorem find?_step {event : VoteEvent} (other : ¬ event.Touches cv.key)
    (found : plugin.votes.find? cv.key = some cv) :
    (plugin.step event).votes.find? cv.key = some cv := by
  cases event with
  | vote cast =>
    have different : cv.key ≠ cast.key := Ne.symm other
    exact (Table.find?_replace_of_ne different).trans
      (Table.find?_insertNew.trans ((if_neg different).trans found))
  | close author permlink =>
    refine Table.find?_filter found (decide_eq_true ?_)
    rw [← not_and_or]
    exact other

theorem find?_run {events : List VoteEvent} (others : ∀ event ∈ events, ¬ event.Touches cv.key)
    (found : plugin.votes.find? cv.key = some cv) :
    (plugin.run events).votes.find? cv.key = some cv := by
  induction events generalizing plugin with
  | nil => exact found
  | cons event rest inductionHypothesis =>
    exact inductionHypothesis (fun later member => others later (List.mem_cons_of_mem event member))
      (find?_step (others event List.mem_cons_self) found)

end ReputationPlugin

/-- When a voter changes a vote, what is taken back from the author is what the vote had given
exactly if that is nothing in any case or the rules decide about the vote now as when it was
cast. -/
theorem takenBack_eq_given_iff (before between : List VoteEvent) (cv : CastVote)
    (untouched : ∀ event ∈ between, ¬ event.Touches cv.key) :
    let cast := (ReputationPlugin.run {} before).withdrawn cv.key
    let now := ReputationPlugin.run {} (before ++ .vote cv :: between)
    now.reputations.of cv.author - (now.withdrawn cv.key).of cv.author =
        (cast.counted cv).of cv.author - cast.of cv.author ↔
      (cv.rshares >>> 6).toInt = 0 ∨ (cast.Counts cv ↔ now.reputations.Withdraws cv) := by
  intro cast now
  have inForce : now.votes.find? cv.key = some cv := by
    have isNow : now = ((ReputationPlugin.run {} before).step (.vote cv)).run between := by
      simp only [now, ReputationPlugin.run, List.foldl_append, List.foldl_cons]
    rw [isNow]
    exact ReputationPlugin.find?_run untouched ReputationPlugin.find?_step_vote
  have isWithdrawn : now.withdrawn cv.key =
      now.reputations.swallowing (now.reputations.preOperation cv) := by
    rw [ReputationPlugin.withdrawn, inForce]
  rw [isWithdrawn]
  obtain ⟨takesBack, leaves⟩ := Reputations.of_preOperation now.reputations cv
  obtain ⟨gives, ignores⟩ := Reputations.of_postOperation cast cv
  by_cases withdraws : now.reputations.Withdraws cv
  · rw [takesBack withdraws]
    by_cases counts : cast.Counts cv
    · rw [gives counts]
      exact iff_of_true (by omega) (Or.inr (iff_of_true counts withdraws))
    · rw [ignores counts, or_iff_left fun alike => counts (alike.mpr withdraws)]
      omega
  · rw [leaves withdraws]
    by_cases counts : cast.Counts cv
    · rw [gives counts, or_iff_left fun alike => withdraws (alike.mp counts)]
      omega
    · rw [ignores counts]
      exact iff_of_true (by omega) (Or.inr (iff_of_false counts withdraws))

/-! ### A vote that had no effect -/

def voteOf (voter author : Nat) (rshares : Int64) : CastVote := ⟨⟨voter⟩, ⟨author⟩, [], rshares⟩

theorem takenBack_eq_given_iff_upvote :
    let cast := (ReputationPlugin.run {} []).withdrawn (voteOf 1 2 6400).key
    let now := ReputationPlugin.run {} [.vote (voteOf 1 2 6400)]
    now.reputations.of ⟨2⟩ - (now.withdrawn (voteOf 1 2 6400).key).of ⟨2⟩ =
      (cast.counted (voteOf 1 2 6400)).of ⟨2⟩ - cast.of ⟨2⟩ := by
  refine (takenBack_eq_given_iff [] [] (voteOf 1 2 6400) (by simp)).mpr (Or.inr ?_)
  have up : ¬ (voteOf 1 2 6400).rshares < 0 := by decide
  exact iff_of_true ⟨by decide, fun down => absurd down up, by decide, by decide⟩
    ⟨by decide, by decide, fun down => absurd down up, by decide, by decide⟩

/-- A voter without reputation votes an author down, which does nothing. When both have gained
reputation and the vote is changed, the author is given a hundred. -/
theorem takenBack_never_given :
    let cast := (ReputationPlugin.run {} []).withdrawn (voteOf 1 2 (-6400)).key
    let now := ReputationPlugin.run {}
      [.vote (voteOf 1 2 (-6400)), .vote (voteOf 3 2 640), .vote (voteOf 3 1 64000)]
    (cast.counted (voteOf 1 2 (-6400))).of ⟨2⟩ - cast.of ⟨2⟩ = 0 ∧
      now.reputations.of ⟨2⟩ - (now.withdrawn (voteOf 1 2 (-6400)).key).of ⟨2⟩ = -100 := by
  decide +kernel

end Zattera
