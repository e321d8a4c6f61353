/-
This file proves that every comment has a number of its own and contents of its
own. Nothing else has contents while no comment is deleted; a deletion leaves the
contents of the comment behind. An edit must name the parent of the comment, but
the comparison of permlinks takes any two of one length to be equal.
-/

import Zattera.Proof.Comments

namespace Zattera

open Program

/-! ### Numbers -/

def ChainState.commentIds (state : ChainState) : List Nat := state.comments.objects.map Comment.id

def ChainState.contentIds (state : ChainState) : List Nat :=
  state.commentContents.objects.map CommentContent.comment

/-- Comments have different numbers, which were given out before, and have contents. -/
structure ChainState.Numbered (state : ChainState) : Prop where
  distinct : state.commentIds.Nodup
  below : ∀ id ∈ state.commentIds, id < state.nextCommentId
  described : state.commentIds ⊆ state.contentIds

/-- The key and the number of a comment. -/
def Comment.name (comment : Comment) : (AccountName × Text) × Nat := (comment.key, comment.id)

instance : Keyed Comment.name := ⟨fun same => congrArg Prod.fst same⟩

theorem Comment.name_children (comment : Comment) (children : Nat) :
    Comment.name { comment with children := children } = comment.name := rfl

section Numbers

variable {s t : ChainState} {u : Unit}

theorem commentIds_of_names {names : List ((AccountName × Text) × Nat)}
    (same : t.comments.objects.map Comment.name = names) :
    t.commentIds = names.map Prod.snd := by
  rw [← same, List.map_map]
  rfl

/-- A new comment gets the next number, for itself and its contents. -/
theorem ids_createComment {o : CommentOperation} {author : Account} {parent : Option Comment}
    {now : TimePointSec} (found : findParent o s = .ok parent s)
    (run : createComment o author parent now s = .ok u t) :
    t.commentIds = s.commentIds ++ [s.nextCommentId] ∧ t.nextCommentId = s.nextCommentId + 1 ∧
      t.contentIds = s.contentIds ++ [s.nextCommentId] := by
  obtain ⟨names, next, described, _⟩ := seen_createComment Comment.name_children found run
  refine ⟨?_, next, ?_⟩
  · rw [commentIds_of_names names, List.map_append, List.map_map]
    rfl
  · rw [ChainState.contentIds, (Table.insert?_eq_some described).2, List.map_append]
    rfl

theorem ids_editComment {o : CommentOperation} {comment : Comment} {parent : Option Comment}
    (run : editComment o comment parent s = .ok u t) :
    t.commentIds = s.commentIds ∧ t.nextCommentId = s.nextCommentId ∧
      t.contentIds = s.contentIds := by
  obtain ⟨_, _, content, changed, found, same, rfl⟩ := editComment_spec run
  have stored : s.commentContents.find? changed.comment = some content := by
    rw [same, Table.key_of_find? found, found]
  exact ⟨rfl, rfl, Table.map_replace CommentContent.comment stored same⟩

theorem ids_deleteComment {o : DeleteCommentOperation}
    (run : deleteCommentEvaluator o s = .ok u t) :
    t.commentIds.Sublist s.commentIds ∧ t.nextCommentId = s.nextCommentId ∧
      t.contentIds = s.contentIds := by
  obtain ⟨comment, _, _, names, next, contents, _⟩ := seen_deleteComment Comment.name_children run
  refine ⟨?_, next, ?_⟩
  · rw [commentIds_of_names names, List.map_map]
    exact List.filter_sublist.map _
  · rw [ChainState.contentIds, contents]
    rfl

theorem ChainState.Numbered.congr (numbered : s.Numbered) (ids : t.commentIds = s.commentIds)
    (next : t.nextCommentId = s.nextCommentId) (contents : t.contentIds = s.contentIds) :
    t.Numbered where
  distinct := ids ▸ numbered.distinct
  below := by
    rw [ids, next]
    exact numbered.below
  described := by
    rw [ids, contents]
    exact numbered.described

theorem numbered_commentEvaluator {o : CommentOperation} :
    Respects (Keeping ChainState.Numbered) (commentEvaluator o) where
  related s u t run numbered := by
    obtain ⟨author, parent, found, ⟨_, created⟩ | ⟨comment, _, edited⟩⟩ := commentEvaluator_spec run
    · obtain ⟨ids, next, contents⟩ := ids_createComment found created
      refine ⟨?_, fun id member => ?_, ?_⟩
      · rw [ids, List.nodup_append]
        refine ⟨numbered.distinct, List.nodup_singleton _, fun old isOld new isNew => ?_⟩
        rw [List.mem_singleton.mp isNew]
        exact (numbered.below old isOld).ne
      · rw [next]
        rw [ids] at member
        rcases List.mem_append.mp member with old | new
        · exact Nat.lt_succ_of_lt (numbered.below id old)
        · exact List.mem_singleton.mp new ▸ Nat.lt_succ_self _
      · rw [ids, contents]
        exact List.append_subset.mpr
          ⟨List.Subset.trans numbered.described (List.subset_append_left _ _),
            List.subset_append_right _ _⟩
    · obtain ⟨ids, next, contents⟩ := ids_editComment edited
      exact numbered.congr ids next contents

theorem numbered_deleteCommentEvaluator {o : DeleteCommentOperation} :
    Respects (Keeping ChainState.Numbered) (deleteCommentEvaluator o) where
  related s u t run numbered := by
    obtain ⟨ids, next, contents⟩ := ids_deleteComment run
    refine ⟨numbered.distinct.sublist ids, fun id member => ?_, ?_⟩
    · rw [next]
      exact numbered.below id (ids.subset member)
    · rw [contents]
      exact List.Subset.trans ids.subset numbered.described

/-- What the lasting part of comments shows of numbers. -/
theorem ids_of_lasting (same : t.seen Comment.lasting = s.seen Comment.lasting) :
    t.commentIds = s.commentIds ∧ t.nextCommentId = s.nextCommentId ∧
      t.contentIds = s.contentIds := by
  refine ⟨map_eq_of_lasting (fun same => congrArg Prod.fst same) same, congrArg (·.2.1) same, ?_⟩
  have contents : t.commentContents = s.commentContents := congrArg (·.2.2) same
  rw [ChainState.contentIds, contents]
  rfl

theorem numbered_run {step : ChainStep} (validated : step.validated) :
    Respects (Keeping ChainState.Numbered) step.run :=
  respects_run_of_lasting validated
    (fun _ _ same numbered => have ⟨ids, next, contents⟩ := ids_of_lasting same
      numbered.congr ids next contents)
    (fun _ _ _ => numbered_commentEvaluator) (fun _ _ => numbered_deleteCommentEvaluator)

theorem numbered_initGenesis (liquid dollar : ShareType) :
    (initGenesis liquid dollar).Numbered where
  distinct := List.nodup_nil
  below _ member := absurd member List.not_mem_nil
  described := List.nil_subset _

theorem numbered_of_reachable {liquid dollar : ShareType}
    (reached : Reachable (initGenesis liquid dollar) s) : s.Numbered := by
  refine @ReachableBy.invariant _ _ ChainState.Numbered (numbered_initGenesis liquid dollar)
    (fun before after step numbered validated _ accepted => ?_) _ reached
  exact (numbered_run validated).related before _ after accepted numbered

end Numbers

/-! ### Contents -/

/-- Only comments have contents. -/
def ChainState.Bare (state : ChainState) : Prop := state.contentIds ⊆ state.commentIds

/-- No operation of the step deletes a comment. -/
def ChainStep.DeletesNothing (step : ChainStep) : Prop :=
  ∀ o, .deleteComment o ∉ step.operations

theorem bare_commentEvaluator {o : CommentOperation} :
    Respects (Keeping ChainState.Bare) (commentEvaluator o) where
  related s u t run bare := by
    unfold ChainState.Bare
    obtain ⟨author, parent, found, ⟨_, created⟩ | ⟨comment, _, edited⟩⟩ := commentEvaluator_spec run
    · obtain ⟨ids, _, contents⟩ := ids_createComment found created
      rw [ids, contents]
      exact List.append_subset.mpr
        ⟨List.Subset.trans bare (List.subset_append_left _ _), List.subset_append_right _ _⟩
    · obtain ⟨ids, _, contents⟩ := ids_editComment edited
      rw [ids, contents]
      exact bare

theorem bare_run {step : ChainStep} (validated : step.validated) (kept : step.DeletesNothing) :
    Respects (Keeping ChainState.Bare) step.run := by
  refine respects_run_of_lasting validated (fun s t same bare => ?_)
    (fun _ _ _ => bare_commentEvaluator) (fun o member => absurd member (kept o))
  obtain ⟨ids, _, contents⟩ := ids_of_lasting same
  unfold ChainState.Bare
  rw [ids, contents]
  exact bare

/-- In every state a chain can reach, every comment has contents, once. Nothing else has contents
on a chain on which no comment is deleted. -/
theorem contents_match_comments (liquid dollar : ShareType) :
    (∀ state, Reachable (initGenesis liquid dollar) state →
      ∀ comment ∈ state.comments.objects,
        ∃! content, content ∈ state.commentContents.objects ∧ content.comment = comment.id) ∧
    ∀ state, ReachableBy (fun _ step => step.DeletesNothing) (initGenesis liquid dollar) state →
      ∀ content ∈ state.commentContents.objects,
        ∃ comment ∈ state.comments.objects, comment.id = content.comment := by
  constructor
  · intro state reached comment stored
    obtain ⟨content, member, same⟩ := List.mem_map.mp
      ((numbered_of_reachable reached).described (List.mem_map_of_mem stored))
    refine ⟨content, ⟨member, same⟩, fun other ⟨otherMember, otherSame⟩ => ?_⟩
    exact List.inj_on_of_nodup_map state.commentContents.distinct otherMember member
      (otherSame.trans same.symm)
  · intro state reached content stored
    have bare : state.Bare := by
      refine @ReachableBy.invariant _ _ ChainState.Bare (List.nil_subset _)
        (fun before after step bare validated kept accepted => ?_) _ reached
      exact (bare_run validated kept).related before _ after accepted bare
    exact List.mem_map.mp (bare (List.mem_map_of_mem stored))

/-- A post of the genesis account. -/
def genesisPost : CommentOperation where
  parentAuthor := AccountName.rootPostParent
  parentPermlink := [97]
  author := AccountName.genesis
  permlink := [98]
  title := []
  body := [99]
  jsonMetadata := ⟨[], true⟩

theorem contents_of_genesisPost :
    ∃ state, ReachableBy (fun _ step => step.DeletesNothing) (initGenesis 1000 0) state ∧
      state.comments.objects ≠ [] ∧ ∀ content ∈ state.commentContents.objects,
        ∃ comment ∈ state.comments.objects, comment.id = content.comment := by
  have finished : ∃ u state, applyTransaction {} false (genesisTransaction [.comment genesisPost])
      (initGenesis 1000 0) = .ok u state ∧ state.comments.objects ≠ [] := by decide +kernel
  obtain ⟨_, state, applied, posted⟩ := finished
  have kept : (ChainStep.transaction {} false
      (genesisTransaction [.comment genesisPost])).DeletesNothing := by
    intro o member
    cases List.mem_singleton.mp member
  have reached : ReachableBy (fun _ step => step.DeletesNothing) (initGenesis 1000 0) state :=
    .step .start _ rfl kept applied
  exact ⟨state, reached, posted, (contents_match_comments 1000 0).2 state reached⟩

/-- The contents of a deleted comment stay behind. -/
theorem contents_of_deleted_comment :
    ∃ state, Reachable (initGenesis 1000 0) state ∧
      ∃ content ∈ state.commentContents.objects,
        ∀ comment ∈ state.comments.objects, comment.id ≠ content.comment := by
  have finished : ∃ u state, applyTransaction {} false (genesisTransaction
      [.comment genesisPost, .deleteComment ⟨AccountName.genesis, [98]⟩]) (initGenesis 1000 0) =
        .ok u state ∧ ∃ content ∈ state.commentContents.objects,
          ∀ comment ∈ state.comments.objects, comment.id ≠ content.comment := by decide +kernel
  obtain ⟨_, state, applied, left⟩ := finished
  exact ⟨state, .step .start (.transaction {} false _) rfl trivial applied, left⟩

/-! ### Edits -/

section Edits

variable {s t : ChainState} {o : CommentOperation} {comment : Comment} {u : Unit}

/-- An accepted edit names the author of the parent, and a permlink that compares equal. -/
theorem parent_of_edit (known : s.comments.find? (o.author, cString o.permlink) = some comment)
    (run : commentEvaluator o s = .ok u t) :
    o.parentAuthor = comment.parentAuthor ∧
      strcmpEqual comment.parentPermlink o.parentPermlink := by
  obtain ⟨author, parent, found, ⟨new, _⟩ | ⟨old, isOld, edited⟩⟩ := commentEvaluator_spec run
  · cases new.symm.trans known
  · obtain rfl := Option.some.inj (isOld.symm.trans known)
    obtain ⟨sameAuthor, samePermlink, _⟩ := editComment_spec edited
    refine ⟨?_, samePermlink⟩
    rcases (findParent_spec found).2 with ⟨rfl, top⟩ | ⟨above, rfl, _⟩
    · exact top.trans sameAuthor.symm
    · exact sameAuthor.symm

/-- The post in some category. -/
def postIn (category : Text) : CommentOperation := { genesisPost with parentPermlink := category }

/-- A state in which the post is there. -/
def postedIn (category : Text) : ChainState :=
  { initGenesis 0 0 with
    comments := ⟨[Comment.make 0 (postIn category) none genesisTime], List.nodup_singleton _⟩
    nextCommentId := 1
    commentContents := ⟨[⟨0, [], []⟩], List.nodup_singleton _⟩ }

theorem edit_accepted {stored given : Text} (alike : strcmpEqual stored given) :
    ∃ t, commentEvaluator (postIn given) (postedIn stored) = .ok () t := by
  have contents : (postedIn stored).commentContents.find? 0 = some ⟨0, [], []⟩ := rfl
  have author : ∃ author, (postedIn stored).accounts.find? AccountName.genesis = some author :=
    Option.isSome_iff_exists.mp
      (by decide +kernel : ((initGenesis 0 0).accounts.find? AccountName.genesis).isSome)
  have edited : ∃ t, editComment (postIn given) (Comment.make 0 (postIn stored) none genesisTime)
      none (postedIn stored) = .ok () t := by
    simp only [editComment, bind_eq_ok, require_eq_ok, get_eq_ok, lookup_eq_ok, modify_eq_ok,
      and_assoc, exists_and_left, exists_eq_left', exists_const]
    exact ⟨rfl, alike, _, _, contents, rfl⟩
  obtain ⟨author, isAuthor⟩ := author
  obtain ⟨t, edited⟩ := edited
  refine ⟨t, ?_⟩
  simp only [commentEvaluator, bind_eq_ok, require_eq_ok, getAccount_eq_ok, headBlockTime_eq_ok,
    get_eq_ok, and_assoc, exists_and_left, exists_eq_left', exists_const]
  exact ⟨Nat.one_pos, author, isAuthor, none, _, rfl, rfl, edited⟩

/-- For two permlinks, an accepted edit that gives the one of a comment that has the other names the
parent of the comment, exactly if the permlinks are the same or differ both in length and before
their first zero byte: the comparison takes all permlinks of one length to be equal. -/
theorem edit_names_parent (stored given : Text) :
    (∀ (s t : ChainState) (o : CommentOperation) (comment : Comment),
      s.comments.find? (o.author, cString o.permlink) = some comment →
        comment.parentPermlink = stored → o.parentPermlink = given →
          commentEvaluator o s = .ok () t →
            o.parentAuthor = comment.parentAuthor ∧ o.parentPermlink = comment.parentPermlink) ↔
      given = stored ∨ stored.length ≠ given.length ∧ cString stored ≠ cString given := by
  constructor
  · intro named
    by_cases alike : strcmpEqual stored given
    · obtain ⟨t, accepted⟩ := edit_accepted alike
      exact .inl (named (postedIn stored) t (postIn given) _ rfl rfl rfl accepted).2
    · rw [strcmpEqual, decide_eq_true_iff, not_or] at alike
      exact .inr alike
  · intro apart s t o comment known isStored isGiven run
    subst isStored isGiven
    obtain ⟨sameAuthor, alike⟩ := parent_of_edit known run
    rw [strcmpEqual, decide_eq_true_iff] at alike
    rcases apart with same | ⟨longer, different⟩
    · exact ⟨sameAuthor, same⟩
    · exact absurd alike (not_or.mpr ⟨longer, different⟩)

/-- A post is edited as if it were in another category. -/
theorem edit_with_other_category :
    ∃ before after comment, Reachable (initGenesis 1000 0) before ∧
      before.comments.find? (AccountName.genesis, cString [98]) = some comment ∧
      commentEvaluator (postIn [122]) before = .ok () after ∧
      (postIn [122]).parentPermlink ≠ comment.parentPermlink := by
  have finished : ∃ u before, applyTransaction {} false (genesisTransaction [.comment genesisPost])
      (initGenesis 1000 0) = .ok u before ∧ Finishes (commentEvaluator (postIn [122])) before ∧
        before.comments.find? (AccountName.genesis, cString [98]) =
          some (Comment.make 0 genesisPost none genesisTime) := by decide +kernel
  obtain ⟨_, before, applied, ⟨_, after, accepted⟩, known⟩ := finished
  exact ⟨before, after, _, .step .start (.transaction {} false _) rfl trivial applied, known,
    accepted, by decide⟩

end Edits

end Zattera
