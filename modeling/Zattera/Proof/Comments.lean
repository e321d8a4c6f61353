/-
This file says what the programs about comments do to the tables of comments, of
their contents and of the votes on them. Most of them write a comment they have
read, and change nothing that a view of the comments looks at. A new comment gets
a number that no comment, no content and no vote has had before.
-/

import Zattera.Proof.Phases

set_option synthInstance.maxSize 4096

namespace Zattera

open Program

variable {comment : Comment} {o : CommentOperation} {now : TimePointSec} {parent : Option Comment}

/-! ### Reading comments -/

section Reading

variable {s t : ChainState} {comment : Comment}

theorem getComment_eq_ok {author : AccountName} {permlink : Text} :
    getComment author permlink s = .ok comment t ↔
      s.comments.find? (author, cString permlink) = some comment ∧ s = t := by
  rw [getComment, get_bind_eq_ok, lookup_eq_ok]

theorem getComment_of_find? {author : AccountName} {permlink : Text}
    (found : s.comments.find? (author, cString permlink) = some comment) :
    getComment author permlink s = .ok comment s :=
  getComment_eq_ok.mpr ⟨found, rfl⟩

theorem getCommentById_eq_ok {id : Nat} :
    getCommentById id s = .ok comment t ↔
      s.comments.objects.find? (fun comment => decide (comment.id = id)) = some comment ∧
        s = t := by
  rw [getCommentById, get_bind_eq_ok, lookup_eq_ok]

/-- A program that reads a comment. -/
def Finds (x : Chain Comment) : Prop :=
  ∀ s comment t, x s = .ok comment t → s = t ∧ comment ∈ s.comments.objects

theorem finds_getComment (author : AccountName) (permlink : Text) :
    Finds (getComment author permlink) := by
  intro s comment t run
  obtain ⟨found, rfl⟩ := getComment_eq_ok.mp run
  exact ⟨rfl, Table.mem_of_find? found⟩

theorem finds_getCommentById (id : Nat) : Finds (getCommentById id) := by
  intro s comment t run
  obtain ⟨found, rfl⟩ := getCommentById_eq_ok.mp run
  exact ⟨rfl, List.mem_of_find?_eq_some found⟩

end Reading

/-! ### What stays as it was -/

/-- What a view shows of the comments, with the next number and the contents. -/
def ChainState.seen {View : Type} (view : Comment → View) (state : ChainState) :
    List View × Nat × Table Nat CommentContent CommentContent.comment :=
  (state.comments.objects.map view, state.nextCommentId, state.commentContents)

/-- What the view shows stays what it was. -/
abbrev Stays {View : Type} (view : Comment → View)
    (kept : List View × Nat × Table Nat CommentContent CommentContent.comment) :
    ChainState → ChainState → Prop :=
  Keeping fun state => state.seen view = kept

/-- A view that shows the key of a comment. -/
class Keyed {View : Type} (view : Comment → View) : Prop where
  key : ∀ {first second : Comment}, view first = view second → first.key = second.key

/-- The parts that hold comments, their numbers and contents. -/
abbrev Part.ofComments : List Part := [.comments, .nextCommentId, .commentContents]

/-- The parts, other than comments, that votes and payouts write. -/
abbrev Part.besideComments : List Part :=
  [.dgp, .accounts, .witnesses, .rewardFunds, .commentVotes]

section Stays

variable {View α : Type} {view : Comment → View}
  {kept : List View × Nat × Table Nat CommentContent CommentContent.comment}

theorem seen_congr {s t : ChainState} (same : ∀ part ∈ Part.ofComments, part.get t = part.get s) :
    t.seen view = s.seen view := by
  have comments : t.comments = s.comments := same .comments (by decide)
  have next : t.nextCommentId = s.nextCommentId := same .nextCommentId (by decide)
  have contents : t.commentContents = s.commentContents := same .commentContents (by decide)
  unfold ChainState.seen
  rw [comments, next, contents]

instance (priority := low) (x : Chain α) [within : Respects (Within Part.besideComments) x] :
    Respects (Stays view kept) x :=
  respects_of_within within (fun _ _ same stays => (seen_congr same).trans stays) (by decide)

theorem Finds.stays {x : Chain Comment} (finds : Finds x) {f : Comment → Chain α}
    (rest : ∀ comment, view comment ∈ kept.1 → Respects (Stays view kept) (f comment)) :
    Respects (Stays view kept) (x >>= f) where
  related s a t run stays := by
    obtain ⟨comment, _, read, finished⟩ := bind_eq_ok.mp run
    obtain ⟨rfl, stored⟩ := finds _ _ _ read
    have member : view comment ∈ kept.1 := stays ▸ List.mem_map_of_mem stored
    exact (rest comment member).related s a t finished stays

theorem stays_lookup {key : AccountName × Text} {f : Comment → Chain α}
    (rest : ∀ comment, view comment ∈ kept.1 → Respects (Stays view kept) (f comment)) :
    Respects (Stays view kept) (get >>= fun s => lookup (s.comments.find? key) >>= f) where
  related s a t run stays := by
    simp only [bind_eq_ok, get_eq_ok, lookup_eq_ok, and_assoc, exists_and_left,
      exists_eq_left'] at run
    obtain ⟨comment, found, finished⟩ := run
    have member : view comment ∈ kept.1 := stays ▸ List.mem_map_of_mem (Table.mem_of_find? found)
    exact (rest comment member).related s a t finished stays

/-- What a program that keeps whatever a view shows leaves. -/
theorem seen_eq {x : Chain α} {s t : ChainState} {a : α}
    (stays : Respects (Stays view (s.seen view)) x) (run : x s = .ok a t) :
    t.seen view = s.seen view :=
  stays.related s a t run rfl

variable [Keyed view]

theorem stays_putComment (member : view comment ∈ kept.1) :
    Respects (Stays view kept) (putComment comment) := by
  refine .modify fun s stays => ?_
  subst stays
  obtain ⟨stored, storedMember, same⟩ := List.mem_map.mp member
  have found : s.comments.find? comment.key = some stored :=
    Table.find?_eq_some_iff.mpr ⟨storedMember, Keyed.key same⟩
  exact congrArg (·, _) (Table.map_replace view found same.symm)

/-- The walk that counts a reply is seen only by a view of the counts. -/
theorem stays_countReply
    (blind : ∀ comment children, view { comment with children := children } = view comment)
    (change : Nat → Nat) (depth : Nat) {parent : Comment} (member : view parent ∈ kept.1) :
    Respects (Stays view kept) (countReply change depth parent) := by
  induction depth generalizing parent with
  | zero =>
    unfold countReply
    refine .step (stays_putComment ?_) fun _ => inferInstance
    rwa [blind]
  | succ depth inductionHypothesis =>
    unfold countReply
    refine .step (stays_putComment ?_) fun _ => ?_
    · rwa [blind]
    · refine @Respects.ite _ _ _ _ _ _ _ _ ?_ inferInstance
      exact (finds_getComment _ _).stays fun next member => inductionHypothesis member

end Stays

/-! ### Options and payouts -/

/-- What neither options nor the record of a payout change about a comment. -/
def Comment.steady (comment : Comment) : Comment :=
  { comment with
    childrenAbsRshares := 0
    totalVoteWeight := 0
    totalPayoutValue := 0
    curatorPayoutValue := 0
    beneficiaryPayoutValue := 0
    authorRewards := 0
    maxAcceptedPayout := 0
    percentZatteraDollars := 0
    allowVotes := true
    allowCurationRewards := true
    beneficiaries := [] }

/-- A view that shows the key of a comment, and nothing that options or the record of a payout
change. -/
class SteadyView {View : Type} (view : Comment → View) : Prop extends Keyed view where
  determined : ∀ {first second : Comment}, first.steady = second.steady → view first = view second

section Steady

variable {View α : Type} {view : Comment → View} [SteadyView view]
  {kept : List View × Nat × Table Nat CommentContent CommentContent.comment}

theorem stays_putSteady {changed : Comment} (member : view comment ∈ kept.1)
    (same : changed.steady = comment.steady) : Respects (Stays view kept) (putComment changed) := by
  have shown : view changed = view comment := SteadyView.determined same
  exact stays_putComment (shown ▸ member)

instance (rootComment : Nat) (absRshares : Int64) :
    Respects (Stays view kept) (addChildrenAbsRshares rootComment absRshares) := by
  refine (finds_getCommentById _).stays fun root member => ?_
  exact .step inferInstance fun _ => stays_putSteady member rfl

/-- The weight is a variable here: the kernel would compute with the one of a vote. -/
theorem stays_putTotalVoteWeight {voted : Comment} (member : view voted ∈ kept.1) (weight : Nat) :
    Respects (Stays view kept) (putComment { voted with totalVoteWeight := weight }) :=
  stays_putSteady member rfl

instance (o : CommentOptionsOperation) :
    Respects (Stays view kept) (commentOptionsEvaluator o) := by
  refine (finds_getComment _ _).stays fun comment member => ?_
  repeat with_reducible refine .step inferInstance fun _ => ?_
  refine .step (stays_putSteady member rfl) fun _ => ?_
  split
  · unfold setBeneficiaries
    repeat with_reducible refine .step inferInstance fun _ => ?_
    exact stays_putSteady member rfl
  · infer_instance

instance (key : AccountName × Text) (median : Price) (dollars : Asset)
    (authorLiquid curationTokens totalBeneficiary authorTokens : ShareType) :
    Respects (Stays view kept) (recordPayout key median dollars authorLiquid curationTokens
      totalBeneficiary authorTokens) := by
  unfold recordPayout
  refine .step inferInstance fun _ => .step inferInstance fun _ => .step inferInstance fun _ =>
    .step inferInstance fun _ => stays_lookup fun comment member => ?_
  repeat with_reducible refine .step inferInstance fun _ => ?_
  exact stays_putSteady member rfl

instance (comment : Comment) (fund : RewardFund) (reward : ShareType) :
    Respects (Stays view kept) (payReward comment fund reward) := by
  dsimp only [payReward, payCurators, payAllCurators]
  repeat with_reducible refine .step inferInstance fun _ => ?_
  infer_instance

instance (comment : Comment) (fund : RewardFund) (recentClaims : UInt128)
    (rewardBalance : ShareType) :
    Respects (Stays view kept) (claimReward comment fund recentClaims rewardBalance) := by
  dsimp only [claimReward]
  infer_instance

end Steady

/-! ### Votes and payouts -/

/-- What neither a vote nor options nor a payout change about a comment. -/
def Comment.lasting (comment : Comment) :
    Nat × (AccountName × Text) × (AccountName × Text) × Nat × Nat × Nat :=
  (comment.id, comment.key, (comment.parentAuthor, comment.parentPermlink), comment.depth,
    comment.children, comment.rootComment)

instance : SteadyView Comment.lasting where
  key same := congrArg (·.2.1) same
  determined {first second} same := by
    change first.steady.lasting = second.steady.lasting
    rw [same]

section Lasting

variable {kept : List (Nat × (AccountName × Text) × (AccountName × Text) × Nat × Nat × Nat) × Nat ×
  Table Nat CommentContent CommentContent.comment}

theorem stays_castVote {o : VoteOperation} {voter : Account} {power : VotePower}
    (member : comment.lasting ∈ kept.1) :
    Respects (Stays Comment.lasting kept) (castVote o comment voter power now) := by
  dsimp only [castVote, spendVotingPower]
  repeat with_reducible refine .step inferInstance fun _ => ?_
  refine .step (stays_putComment member) fun _ => .step inferInstance fun _ =>
    .step inferInstance fun _ => .step inferInstance fun _ => ?_
  exact (finds_getCommentById _).stays fun voted member => stays_putTotalVoteWeight member _

theorem stays_changeVote {o : VoteOperation} {voter : Account} {power : VotePower}
    {vote : CommentVote} (member : comment.lasting ∈ kept.1) :
    Respects (Stays Comment.lasting kept) (changeVote o comment voter power vote now) := by
  dsimp only [changeVote, spendVotingPower, putCommentVote]
  repeat with_reducible refine .step inferInstance fun _ => ?_
  refine .step (stays_putComment member) fun _ => .step inferInstance fun _ => ?_
  refine (finds_getCommentById _).stays fun voted member => ?_
  exact .step (stays_putTotalVoteWeight member _) fun _ => .modify fun _ => id

instance (o : VoteOperation) : Respects (Stays Comment.lasting kept) (voteEvaluator o) := by
  refine (finds_getComment _ _).stays fun comment member => ?_
  repeat with_reducible refine .step inferInstance fun _ => ?_
  refine @Respects.ite _ _ _ _ _ _ _ _ inferInstance (.step inferInstance fun power => ?_)
  split
  · exact stays_castVote member
  · exact .step inferInstance fun _ => stays_changeVote member

instance (recentClaims : UInt128) (rewardBalance : ShareType) (key : AccountName × Text) :
    Respects (Stays Comment.lasting kept)
      (cashoutCommentHelper recentClaims rewardBalance key) := by
  refine stays_lookup fun comment _ => ?_
  refine .step inferInstance fun _ => .step inferInstance fun fund => .step inferInstance fun _ => ?_
  refine stays_lookup fun paid member => .step inferInstance fun _ => ?_
  exact .step (stays_putComment member) fun _ => .step (.modify fun _ => id) fun _ => inferInstance

instance (recentClaims : UInt128) (rewardBalance : ShareType) (due : List Comment)
    (awarded : ShareType) :
    Respects (Stays Comment.lasting kept) (cashoutEach recentClaims rewardBalance due awarded) := by
  induction due generalizing awarded with
  | nil => exact Respects.pure _
  | cons comment rest inductionHypothesis =>
    unfold cashoutEach
    infer_instance

instance : Respects (Stays Comment.lasting kept) processCommentCashout := by
  dsimp only [processCommentCashout]
  infer_instance

end Lasting

/-- What the lasting part of the comments determines. -/
theorem map_eq_of_lasting {View : Type} [Nonempty View] {view : Comment → View} {s t : ChainState}
    (determined : ∀ {first second : Comment}, first.lasting = second.lasting →
      view first = view second)
    (same : t.seen Comment.lasting = s.seen Comment.lasting) :
    t.comments.objects.map view = s.comments.objects.map view := by
  have lasting : t.comments.objects.map Comment.lasting = s.comments.objects.map Comment.lasting :=
    congrArg Prod.fst same
  obtain ⟨look, rfl⟩ := (Function.factorsThrough_iff view).mp fun _ _ same => determined same
  rw [← List.map_map, lasting, List.map_map]

/-- What is left of comments, their numbers and contents by what only votes and pays. -/
theorem respects_of_lasting {α : Type} {x : Chain α} {R : ChainState → ChainState → Prop}
    (lasting : ∀ kept, Respects (Stays Comment.lasting kept) x)
    (weaker : ∀ s t, t.seen Comment.lasting = s.seen Comment.lasting → R s t) : Respects R x where
  related s _ t run := weaker s t (seen_eq (lasting (s.seen Comment.lasting)) run)

/-- The rule for a relation that looks at the lasting part of comments, at their numbers and at
their contents: it need be shown of new comments, edits and deletions. -/
theorem respects_run_of_lasting {R : ChainState → ChainState → Prop} [Std.Refl R]
    [IsTrans ChainState R] {step : ChainStep} (validated : step.validated)
    (weaker : ∀ s t, t.seen Comment.lasting = s.seen Comment.lasting → R s t)
    (comment : ∀ o, .comment o ∈ step.operations → o.validate = .ok () →
      Respects R (commentEvaluator o))
    (delete : ∀ o, .deleteComment o ∈ step.operations → Respects R (deleteCommentEvaluator o)) :
    Respects R step.run := by
  refine respects_run_of_watched validated (fun s t same => weaker s t (seen_congr same))
    (fun producing op member valid touched => ?_) (fun blockStep touched => ?_) (by decide)
  · cases op with
    | vote o =>
      exact respects_of_lasting
        (fun kept => inferInstanceAs (Respects (Stays Comment.lasting kept) (voteEvaluator o))) weaker
    | comment o => exact comment o member valid
    | deleteComment o => exact delete o member
    | commentOptions o =>
      exact respects_of_lasting (fun kept =>
        inferInstanceAs (Respects (Stays Comment.lasting kept) (commentOptionsEvaluator o))) weaker
    | _ => exact absurd touched (of_decide_eq_false rfl)
  · cases blockStep with
    | commentCashout =>
      exact respects_of_lasting (fun kept =>
        inferInstanceAs (Respects (Stays Comment.lasting kept) processCommentCashout)) weaker
    | _ => exact absurd touched (of_decide_eq_false rfl)

/-! ### New comments, edits and deletions -/

section Programs

variable {s t : ChainState} {u : Unit}

/-- The parent that an operation names is there. -/
theorem findParent_spec (run : findParent o s = .ok parent t) :
    s = t ∧ ((parent = none ∧ o.parentAuthor = AccountName.rootPostParent) ∨
      ∃ above, parent = some above ∧ o.parentAuthor ≠ AccountName.rootPostParent ∧
        s.comments.find? (o.parentAuthor, cString o.parentPermlink) = some above) := by
  unfold findParent at run
  split at run
  · next reply =>
    simp only [bind_eq_ok, getComment_eq_ok, require_eq_ok, pure_eq_ok, and_assoc, exists_and_left,
      exists_eq_left'] at run
    obtain ⟨above, found, _, rfl, _, rfl⟩ := run
    exact ⟨rfl, .inr ⟨above, rfl, reply, found⟩⟩
  · next top =>
    obtain ⟨rfl, rfl⟩ := pure_eq_ok.mp run
    exact ⟨rfl, .inl ⟨rfl, not_not.mp top⟩⟩

/-- The walk from the parent of a new comment. -/
def countBelow (parent : Option Comment) : Chain Unit :=
  match parent with
  | some parent => countReply (· + 1) parent.depth parent
  | none => return ()

theorem createComment_spec {author : Account} (run : createComment o author parent now s = .ok u t) :
    ∃ middle : ChainState,
      s.comments.insert? (Comment.make s.nextCommentId o parent now) = some middle.comments ∧
      s.commentContents.insert? ⟨s.nextCommentId, o.title, o.jsonMetadata.text⟩ =
        some middle.commentContents ∧
      middle.nextCommentId = s.nextCommentId + 1 ∧ middle.commentVotes = s.commentVotes ∧
      countBelow parent middle = .ok u t := by
  simp only [createComment, bind_eq_ok, lift_eq_ok, get_eq_ok, and_assoc, exists_and_left,
    exists_eq_left', insertComment, insertCommentContent, create_eq_ok] at run
  obtain ⟨_, _, replies, _, _, interval, _, posted, updated, _, _, _, _, _, _,
    ⟨comments, inserted, rfl⟩, _, _, ⟨contents, described, rfl⟩, walked⟩ := run
  obtain rfl := unmoved replies
  obtain rfl := unmoved interval
  have same : Within [.accounts] s posted := Respects.related _ _ _ updated
  have sameComments : posted.comments = s.comments := same .comments (by decide)
  have sameNext : posted.nextCommentId = s.nextCommentId := same .nextCommentId (by decide)
  have sameContents : posted.commentContents = s.commentContents := same .commentContents (by decide)
  rw [sameComments, sameNext] at inserted
  rw [sameContents, sameNext] at described
  refine ⟨{ posted with
      comments := comments
      nextCommentId := posted.nextCommentId + 1
      commentContents := contents }, inserted, described, congrArg (· + 1) sameNext,
    same .commentVotes (by decide), ?_⟩
  cases parent with
  | none => exact walked
  | some above => exact walked

theorem editComment_spec (run : editComment o comment parent s = .ok u t) :
    comment.parentAuthor = (if parent.isSome then o.parentAuthor else default) ∧
      strcmpEqual comment.parentPermlink o.parentPermlink ∧
      ∃ content changed, s.commentContents.find? comment.id = some content ∧
        changed.comment = content.comment ∧
        t = { s with commentContents := s.commentContents.replace changed } := by
  simp only [editComment, bind_eq_ok, require_eq_ok, get_eq_ok, lookup_eq_ok, modify_eq_ok,
    and_assoc, exists_and_left, exists_eq_left', exists_const] at run
  obtain ⟨sameAuthor, samePermlink, content, found, rfl⟩ := run
  refine ⟨sameAuthor, samePermlink, content, _, found, ?_, rfl⟩
  rfl

theorem commentEvaluator_spec (run : commentEvaluator o s = .ok u t) :
    ∃ author parent, findParent o s = .ok parent s ∧
      ((s.comments.find? (o.author, cString o.permlink) = none ∧
          createComment o author parent s.dgp.time s = .ok u t) ∨
        ∃ comment, s.comments.find? (o.author, cString o.permlink) = some comment ∧
          editComment o comment parent s = .ok u t) := by
  simp only [commentEvaluator, bind_eq_ok, require_eq_ok, getAccount_eq_ok, headBlockTime_eq_ok,
    get_eq_ok, and_assoc, exists_and_left, exists_eq_left', exists_const] at run
  obtain ⟨_, author, _, parent, _, found, _, run⟩ := run
  obtain ⟨rfl, _⟩ := findParent_spec found
  refine ⟨author, parent, found, ?_⟩
  cases known : s.comments.find? (o.author, cString o.permlink) with
  | none =>
    rw [known] at run
    exact .inl ⟨rfl, run⟩
  | some comment =>
    rw [known] at run
    exact .inr ⟨comment, rfl, run⟩

/-- The state after the votes on a comment are removed. -/
def ChainState.withoutVotes (state : ChainState) (comment : Nat) : ChainState :=
  { state with
    commentVotes := state.commentVotes.filter fun vote => decide (vote.comment ≠ comment) }

theorem deleteCommentEvaluator_spec {o : DeleteCommentOperation}
    (run : deleteCommentEvaluator o s = .ok u t) :
    ∃ comment after, s.comments.find? (o.author, cString o.permlink) = some comment ∧
      comment.children = 0 ∧ comment.cashoutTime ≠ TimePointSec.maximum ∧
      whenever (comment.parentAuthor ≠ AccountName.rootPostParent)
          (getComment comment.parentAuthor comment.parentPermlink >>= fun parent =>
            countReply (· - 1) parent.depth parent) (s.withoutVotes comment.id) = .ok () after ∧
      t = { after with comments := after.comments.erase comment.key } := by
  simp only [deleteCommentEvaluator, bind_eq_ok, require_eq_ok, getComment_eq_ok, and_assoc,
    exists_and_left, exists_eq_left', exists_const] at run
  obtain ⟨comment, found, childless, unpaid, _, _, _, cleared, _, after, counted, erased⟩ := run
  obtain rfl := modify_eq_ok.mp cleared
  obtain rfl := modify_eq_ok.mp erased
  exact ⟨comment, after, found, childless, unpaid, counted, rfl⟩

instance (parent : Option Comment) : Respects (Within [.comments]) (countBelow parent) := by
  unfold countBelow
  split
  · infer_instance
  · infer_instance

/-! ### What a view without counts sees -/

section Blind

variable {View : Type} {view : Comment → View} [Keyed view]

/-- A view of the comments shows which of them a key erases. -/
theorem map_erase_congr {first second : Table (AccountName × Text) Comment Comment.key}
    {key : AccountName × Text} (same : first.objects.map view = second.objects.map view) :
    (first.erase key).objects.map view = (second.erase key).objects.map view := by
  obtain ⟨look, isKey⟩ := (Function.factorsThrough_iff Comment.key).mp
    fun _ _ (same : view _ = view _) => Keyed.key same
  have erased (table : Table (AccountName × Text) Comment Comment.key) :
      (table.erase key).objects.map view =
        (table.objects.map view).filter fun shown => decide (look shown ≠ key) := by
    rw [List.filter_map]
    refine congrArg _ (List.filter_congr fun comment _ => ?_)
    show decide (comment.key ≠ key) = decide (look (view comment) ≠ key)
    rw [isKey]
    rfl
  rw [erased, erased, same]

variable
  (blind : ∀ comment children, view { comment with children := children } = view comment)
include blind

/-- A new comment, which no one else's view changes for. -/
theorem seen_createComment {author : Account} (found : findParent o s = .ok parent s)
    (run : createComment o author parent now s = .ok u t) :
    t.comments.objects.map view = s.comments.objects.map view ++
        [view (Comment.make s.nextCommentId o parent now)] ∧
      t.nextCommentId = s.nextCommentId + 1 ∧
      s.commentContents.insert? ⟨s.nextCommentId, o.title, o.jsonMetadata.text⟩ =
        some t.commentContents ∧ t.commentVotes = s.commentVotes := by
  obtain ⟨middle, inserted, described, next, votes, walked⟩ := createComment_spec run
  have added := (Table.insert?_eq_some inserted).2
  have stays : t.seen view = middle.seen view := by
    rcases (findParent_spec found).2 with ⟨rfl, _⟩ | ⟨above, rfl, _, stored⟩
    · obtain ⟨_, rfl⟩ := pure_eq_ok.mp walked
      rfl
    · have member : view above ∈ (middle.seen view).1 := by
        refine List.mem_map_of_mem ?_
        rw [added]
        exact List.mem_append_left _ (Table.mem_of_find? stored)
      exact seen_eq (stays_countReply blind _ _ member) walked
  have sameVotes : t.commentVotes = middle.commentVotes := by
    have within : Within [.comments] middle t := Respects.related _ _ _ walked
    exact within .commentVotes (by decide)
  simp only [ChainState.seen, Prod.mk.injEq] at stays
  obtain ⟨comments, sameNext, contents⟩ := stays
  rw [comments, added, List.map_append, sameNext, contents, sameVotes]
  exact ⟨rfl, next, described, votes⟩

/-- A deletion takes the comment and its votes away and leaves its contents. -/
theorem seen_deleteComment {o : DeleteCommentOperation}
    (run : deleteCommentEvaluator o s = .ok u t) :
    ∃ comment, s.comments.find? (o.author, cString o.permlink) = some comment ∧
      comment.cashoutTime ≠ TimePointSec.maximum ∧
      t.comments.objects.map view = (s.comments.erase comment.key).objects.map view ∧
      t.nextCommentId = s.nextCommentId ∧ t.commentContents = s.commentContents ∧
      t.commentVotes = (s.withoutVotes comment.id).commentVotes := by
  obtain ⟨comment, after, found, _, unpaid, counting, rfl⟩ := deleteCommentEvaluator_spec run
  have walk : Respects (Stays view ((s.withoutVotes comment.id).seen view))
      (whenever (comment.parentAuthor ≠ AccountName.rootPostParent)
        (getComment comment.parentAuthor comment.parentPermlink >>= fun parent =>
          countReply (· - 1) parent.depth parent)) :=
    .guarded fun _ => (finds_getComment _ _).stays fun parent member =>
      stays_countReply blind _ _ member
  have stays : after.seen view = s.seen view := walk.related _ _ _ counting rfl
  have within : Within [.comments] (s.withoutVotes comment.id) after :=
    Respects.related _ _ _ counting
  simp only [ChainState.seen, Prod.mk.injEq] at stays
  obtain ⟨comments, next, contents⟩ := stays
  exact ⟨comment, found, unpaid, map_erase_congr comments, next, contents,
    within .commentVotes (by decide)⟩

end Blind

end Programs

end Zattera
