/-
This file proves that comments form a forest in every state a chain can reach: a
reply hangs one step below its parent, which is there, and names the root of its
discussion, and every comment counts all that is below it. Only a new comment and
the deletion of one change the forest, by a leaf, since a comment with replies
cannot be deleted; the walk that counts a reply meets exactly the comments above
it. So counting everything anew changes nothing.
-/

import Zattera.Lib.Forest
import Zattera.Proof.Contents
import Zattera.Proof.Duplicates

set_option synthInstance.maxSize 4096

namespace Zattera

open Program Forest

variable {comment : Comment} {state t : ChainState} {o : CommentOperation} {parent : Option Comment}

/-! ### Comments as nodes -/

/-- Where a comment hangs. -/
def Comment.node (comment : Comment) : Forest.Node (AccountName × Text) where
  key := comment.key
  parent := if comment.parentAuthor = AccountName.rootPostParent then none
    else some (comment.parentAuthor, cString comment.parentPermlink)
  depth := comment.depth
  id := comment.id
  root := comment.rootComment
  children := comment.children

def ChainState.nodes (state : ChainState) : List (Forest.Node (AccountName × Text)) :=
  state.comments.objects.map Comment.node

/-- The comments form a forest that counts its replies, and are by accounts that have names. -/
structure ChainState.Discussed (state : ChainState) : Prop where
  counted : Counted state.nodes
  named : ∀ key ∈ state.nodes.map Forest.Node.key, key.1 ≠ AccountName.rootPostParent

theorem ChainState.Discussed.author_ne (discussed : state.Discussed)
    (stored : comment ∈ state.comments.objects) : comment.author ≠ AccountName.rootPostParent :=
  discussed.named _ (List.mem_map_of_mem (List.mem_map_of_mem stored))

theorem Comment.node_parent_eq_none :
    comment.node.parent = none ↔ comment.parentAuthor = AccountName.rootPostParent := by
  unfold Comment.node
  dsimp only
  split
  · next same => exact iff_of_true rfl same
  · next different => exact iff_of_false (fun impossible => by cases impossible) different

theorem Comment.node_parent_of_ne (reply : comment.parentAuthor ≠ AccountName.rootPostParent) :
    comment.node.parent = some (comment.parentAuthor, cString comment.parentPermlink) :=
  if_neg reply

theorem ChainState.find?_of_mem_nodes {node : Forest.Node (AccountName × Text)}
    (member : node ∈ state.nodes) :
    ∃ comment, state.comments.find? node.key = some comment ∧ comment.node = node := by
  obtain ⟨comment, stored, rfl⟩ := List.mem_map.mp member
  exact ⟨comment, Table.find?_of_mem stored, rfl⟩

/-! ### The state with other counts -/

def Comment.counting (comment : Comment) (count : AccountName × Text → Nat) : Comment :=
  { comment with children := count comment.key }

section Counting

variable {comment : Comment} {count : AccountName × Text → Nat}

@[simp] theorem Comment.counting_depth : (comment.counting count).depth = comment.depth := rfl

@[simp] theorem Comment.counting_children :
    (comment.counting count).children = count comment.key := rfl

@[simp] theorem Comment.counting_parentAuthor :
    (comment.counting count).parentAuthor = comment.parentAuthor := rfl

@[simp] theorem Comment.counting_parentPermlink :
    (comment.counting count).parentPermlink = comment.parentPermlink := rfl

end Counting

/-- The state in which comments count as told by their keys. -/
def ChainState.counting (state : ChainState) (count : AccountName × Text → Nat) : ChainState :=
  { state with
    comments := ⟨state.comments.objects.map fun comment => comment.counting count, by
      rw [List.map_map]
      exact state.comments.distinct⟩ }

section Counting

variable {s : ChainState} {count other : AccountName × Text → Nat}

theorem ChainState.counting_congr
    (same : ∀ comment ∈ s.comments.objects, count comment.key = other comment.key) :
    s.counting count = s.counting other := by
  have comments : (s.counting count).comments = (s.counting other).comments := by
    refine Table.eq_of_objects (List.map_congr_left fun comment member => ?_)
    rw [Comment.counting, Comment.counting, same comment member]
  unfold ChainState.counting at comments ⊢
  dsimp only at comments
  rw [comments]

theorem ChainState.counting_self
    (same : ∀ comment ∈ s.comments.objects, count comment.key = comment.children) :
    s.counting count = s := by
  have comments : (s.counting count).comments = s.comments := by
    refine Table.eq_of_objects ((List.map_congr_left fun comment member => ?_).trans
      (List.map_id _))
    rw [Comment.counting, same comment member]
    rfl
  unfold ChainState.counting at comments ⊢
  dsimp only at comments
  rw [comments]

theorem ChainState.find?_counting {key : AccountName × Text}
    (found : s.comments.find? key = some comment) :
    (s.counting count).comments.find? key = some (comment.counting count) := by
  obtain rfl : comment.key = key := Table.key_of_find? found
  have member : comment.counting count ∈ (s.counting count).comments :=
    List.mem_map.mpr ⟨comment, Table.mem_of_find? found, rfl⟩
  exact Table.find?_of_mem member

/-- Writing the count of one comment. -/
theorem putComment_children (stored : comment ∈ s.comments.objects) (value : Nat) :
    putComment { comment with children := value } (s.counting count) =
      .ok () (s.counting (Function.update count comment.key value)) := by
  have comments : (s.counting count).comments.replace { comment with children := value } =
      (s.counting (Function.update count comment.key value)).comments := by
    refine Table.eq_of_objects ?_
    show List.map _ (List.map _ _) = List.map _ _
    rw [List.map_map]
    refine List.map_congr_left fun old member => ?_
    rw [Function.comp_apply]
    by_cases same : old.key = comment.key
    · obtain rfl : old = comment := List.inj_on_of_nodup_map s.comments.distinct member stored same
      rw [Comment.counting, Comment.counting, Function.update_self]
      exact if_pos rfl
    · rw [Comment.counting, Comment.counting, Function.update_of_ne same]
      exact if_neg same
  show EStateM.Result.ok () { s.counting count with
    comments := (s.counting count).comments.replace { comment with children := value } } = _
  rw [comments]
  rfl

theorem putComment_counting (stored : comment ∈ s.comments.objects) (value : Nat) :
    putComment { comment.counting count with children := value } (s.counting count) =
      .ok () (s.counting (Function.update count comment.key value)) :=
  putComment_children stored value

end Counting

/-! ### The walk up -/

section Walk

variable {s : ChainState} {comment : Comment} {count : AccountName × Text → Nat}

/-- The parent of a reply. -/
theorem exists_parent (forest : IsForest s.nodes) (stored : comment ∈ s.comments.objects)
    (reply : comment.parentAuthor ≠ AccountName.rootPostParent) :
    ∃ parent, s.comments.find? (comment.parentAuthor, cString comment.parentPermlink) =
        some parent ∧ parent.key = (comment.parentAuthor, cString comment.parentPermlink) ∧
      comment.depth = parent.depth + 1 := by
  obtain ⟨node, member, same, deeper, _⟩ := forest.reply comment.node
    (List.mem_map_of_mem stored) _ (Comment.node_parent_of_ne reply)
  obtain ⟨parent, found, rfl⟩ := ChainState.find?_of_mem_nodes member
  rw [same] at found
  exact ⟨parent, found, same, deeper⟩

open Classical in
/-- The walk from a comment changes the counts on the way up and no others. -/
theorem countReply_counting (forest : IsForest s.nodes) (change : Nat → Nat)
    (stored : comment ∈ s.comments.objects) :
    countReply change comment.depth (comment.counting count) (s.counting count) =
      .ok () (s.counting fun key =>
        if UpFrom s.nodes comment.key key then change (count key) else count key) := by
  have member : comment.node ∈ s.nodes := List.mem_map_of_mem stored
  generalize deep : comment.depth = depth
  induction depth generalizing comment count with
  | zero =>
    have top : comment.node.parent = none := by
      cases hangs : comment.node.parent with
      | none => rfl
      | some above =>
        obtain ⟨_, _, _, deeper, _⟩ := forest.reply comment.node member above hangs
        exact absurd (deep.symm.trans deeper) (Nat.succ_ne_zero _).symm
    rw [countReply, bind_of_ok (putComment_counting stored _)]
    refine congrArg _ (ChainState.counting_congr fun other _ => ?_)
    by_cases same : other.key = comment.key
    · rw [same, Function.update_self, if_pos .refl, Comment.counting_children]
    · rw [Function.update_of_ne same, if_neg fun up => ?_]
      rcases Relation.reflTransGen_iff_eq_or_transGen.mp up with equal | below
      · exact same equal
      · exact forest.not_below_of_top member top below
  | succ depth inductionHypothesis =>
    have reply : comment.parentAuthor ≠ AccountName.rootPostParent := fun top => by
      have shallow := (forest.top comment.node member (Comment.node_parent_eq_none.mpr top)).1
      exact absurd (deep.symm.trans shallow) (Nat.succ_ne_zero _)
    obtain ⟨parent, found, isParent, deeper⟩ := exists_parent forest stored reply
    have hangs : comment.node.parent = some parent.key :=
      (Comment.node_parent_of_ne reply).trans (congrArg some isParent.symm)
    have parentStored := Table.mem_of_find? found
    rw [countReply, bind_of_ok (putComment_counting stored _), Comment.counting_children,
      Comment.counting_parentAuthor, Comment.counting_parentPermlink, if_pos reply,
      bind_of_ok (getComment_of_find? (ChainState.find?_counting found)),
      inductionHypothesis parentStored (List.mem_map_of_mem parentStored)
        (Nat.succ.inj (deeper.symm.trans deep))]
    refine congrArg _ (ChainState.counting_congr fun other _ => ?_)
    by_cases same : other.key = comment.key
    · have unmet : ¬ UpFrom s.nodes parent.key comment.key := fun up => by
        obtain ⟨higher, higherMember, isComment, less⟩ :=
          forest.mem_of_upFrom up (List.mem_map_of_mem parentStored) rfl
        obtain rfl := forest.eq_of_key higherMember member isComment
        exact Nat.not_succ_le_self _ (deeper.symm.trans_le less)
      rw [same, if_neg unmet, Function.update_self, if_pos .refl]
    · have above : UpFrom s.nodes comment.key other.key ↔ UpFrom s.nodes parent.key other.key := by
        rw [← forest.below_iff member hangs]
        exact ⟨fun up => (Relation.reflTransGen_iff_eq_or_transGen.mp up).resolve_left same,
          Relation.TransGen.to_reflTransGen⟩
      rw [Function.update_of_ne same]
      simp only [above]

/-- The number of replies the comment under a key counts. -/
def ChainState.childrenAt (state : ChainState) (key : AccountName × Text) : Nat :=
  ((state.comments.find? key).map Comment.children).getD 0

theorem ChainState.childrenAt_of_mem (stored : comment ∈ s.comments.objects) :
    s.childrenAt comment.key = comment.children := by
  rw [childrenAt, Table.find?_of_mem stored]
  rfl

theorem ChainState.nodes_counting :
    (s.counting count).nodes = s.nodes.map fun node => { node with children := count node.key } := by
  unfold ChainState.nodes ChainState.counting
  rw [List.map_map, List.map_map]
  rfl

open Classical in
theorem nodes_countReply (forest : IsForest s.nodes) {change : Nat → Nat}
    (stored : comment ∈ s.comments.objects) {u : Unit}
    (run : countReply change comment.depth comment s = .ok u t) :
    t.nodes = recount (UpFrom s.nodes comment.key) change s.nodes := by
  have walked := @countReply_counting s comment s.childrenAt forest change stored
  rw [ChainState.counting_self fun _ member => ChainState.childrenAt_of_mem member,
    Comment.counting, ChainState.childrenAt_of_mem stored, run] at walked
  obtain ⟨_, rfl⟩ := EStateM.Result.ok.inj walked
  rw [ChainState.nodes_counting, recount]
  refine List.map_congr_left fun node member => ?_
  obtain ⟨old, oldStored, rfl⟩ := List.mem_map.mp member
  have own : s.childrenAt old.node.key = old.node.children :=
    ChainState.childrenAt_of_mem oldStored
  rw [own]
  split
  · rfl
  · rfl

end Walk

/-! ### What leaves the comments where they hang -/

theorem Comment.node_of_lasting {first second : Comment} (same : first.lasting = second.lasting) :
    first.node = second.node := by
  simp only [Comment.lasting, Prod.mk.injEq] at same
  obtain ⟨id, key, ⟨parentAuthor, parentPermlink⟩, depth, children, root⟩ := same
  unfold Comment.node
  rw [id, key, parentAuthor, parentPermlink, depth, children, root]

theorem ChainState.nodes_of_lasting {s : ChainState}
    (same : t.seen Comment.lasting = s.seen Comment.lasting) : t.nodes = s.nodes :=
  map_eq_of_lasting Comment.node_of_lasting same

theorem ChainState.Discussed.congr {s : ChainState} (discussed : s.Discussed)
    (same : t.nodes = s.nodes) : t.Discussed where
  counted := same ▸ discussed.counted
  named := same ▸ discussed.named

/-! ### New comments and deleted ones -/

section Leaves

variable {s t : ChainState} {u : Unit}

theorem key_fresh_of_insert? {added : Table (AccountName × Text) Comment Comment.key}
    (inserted : s.comments.insert? comment = some added) :
    comment.key ∉ s.nodes.map Forest.Node.key := by
  intro taken
  obtain ⟨node, member, same⟩ := List.mem_map.mp taken
  obtain ⟨stored, found, _⟩ := ChainState.find?_of_mem_nodes member
  rw [same] at found
  cases (Table.insert?_eq_some inserted).1.symm.trans found

theorem ne_rootPostParent_of_validate {name : AccountName}
    (valid : validateAccountName name = .ok ()) : name ≠ AccountName.rootPostParent := by
  rintro rfl
  exact absurd valid (by decide)

theorem author_ne_of_validate (valid : o.validate = .ok ()) :
    o.author ≠ AccountName.rootPostParent := by
  simp only [CommentOperation.validate, except_bind_eq_ok] at valid
  obtain ⟨_, _, _, _, _, _, _, _, checked⟩ := valid
  refine ne_rootPostParent_of_validate ?_
  split at checked
  · obtain ⟨_, _, checked⟩ := except_bind_eq_ok.mp checked
    obtain ⟨_, named, _⟩ := except_bind_eq_ok.mp checked
    exact named
  · obtain ⟨_, _, checked⟩ := except_bind_eq_ok.mp checked
    obtain ⟨_, named, _⟩ := except_bind_eq_ok.mp checked
    exact named

/-- A new comment hangs below the parent it is made for. -/
theorem Comment.node_make_parent (id : Nat) (o : CommentOperation) (now : TimePointSec)
    (named : ∀ above, parent = some above → above.author ≠ AccountName.rootPostParent) :
    (Comment.make id o parent now).node.parent = parent.map Comment.key := by
  cases parent with
  | none => exact Comment.node_parent_eq_none.mpr rfl
  | some above =>
    have reply : (Comment.make id o (some above) now).parentAuthor ≠ AccountName.rootPostParent :=
      named above rfl
    exact Comment.node_parent_of_ne reply

theorem fits_make {id : Nat} {now : TimePointSec} (discussed : s.Discussed)
    (stored : ∀ above, parent = some above → above ∈ s.comments.objects)
    (fresh : (Comment.make id o parent now).key ∉ s.nodes.map Forest.Node.key) :
    Fits s.nodes (Comment.make id o parent now).node := by
  have hangs := Comment.node_make_parent id o now fun above isParent =>
    discussed.author_ne (stored above isParent)
  refine ⟨fresh, fun top => ?_, fun key isReply => ?_⟩
  · cases parent with
    | none => exact ⟨rfl, rfl⟩
    | some above => cases hangs.symm.trans top
  · cases parent with
    | none => cases hangs.symm.trans isReply
    | some above =>
      obtain rfl := Option.some.inj (hangs.symm.trans isReply)
      exact ⟨above.node, List.mem_map_of_mem (stored above rfl), rfl, rfl, rfl⟩

section Added

variable {middle : ChainState} {leaf : Comment}

theorem nodes_of_added (added : middle.comments.objects = s.comments.objects ++ [leaf]) :
    middle.nodes = s.nodes ++ [leaf.node] := by
  rw [ChainState.nodes, added, List.map_append]
  rfl

theorem ChainState.Discussed.of_added (discussed : s.Discussed)
    (named : leaf.author ≠ AccountName.rootPostParent) (counted : Counted t.nodes)
    (keys : t.nodes.map Forest.Node.key = (s.nodes ++ [leaf.node]).map Forest.Node.key) :
    t.Discussed := by
  refine ⟨counted, fun key member => ?_⟩
  rw [keys, List.map_append] at member
  rcases List.mem_append.mp member with old | new
  · exact discussed.named key old
  · exact List.mem_singleton.mp new ▸ named

/-- A new discussion is counted nowhere. -/
theorem counted_addTop (counted : Counted s.nodes) (fits : Fits s.nodes leaf.node)
    (none : leaf.children = 0) (top : leaf.node.parent = .none) :
    Counted (s.nodes ++ [leaf.node]) := by
  rw [← @recount_of_none _ (s.nodes ++ [leaf.node]) (fun _ => False) _ (· + 1) fun _ => id]
  exact counted.add fits none fun above => iff_of_false id (not_onWay_of_top top)

open Classical in
/-- After the walk from its parent, a reply is counted. -/
theorem counted_addReply {above : Comment} (counted : Counted s.nodes)
    (fits : Fits s.nodes leaf.node) (none : leaf.children = 0)
    (hangs : leaf.node.parent = some above.key) (stored : above ∈ s.comments.objects)
    (added : middle.comments.objects = s.comments.objects ++ [leaf])
    (run : countReply (· + 1) above.depth above middle = .ok u t) :
    Counted t.nodes ∧
      t.nodes.map Forest.Node.key = (s.nodes ++ [leaf.node]).map Forest.Node.key := by
  have forest : IsForest middle.nodes := nodes_of_added added ▸ counted.toIsForest.add fits
  have still : above ∈ middle.comments.objects := added ▸ List.mem_append_left _ stored
  rw [nodes_countReply forest still run, nodes_of_added added, map_key_recount]
  refine ⟨counted.add fits none fun key => ?_, rfl⟩
  have parentMember : above.node ∈ s.nodes := List.mem_map_of_mem stored
  rw [onWay_of_parent hangs]
  exact counted.toIsForest.upFrom_add fits parentMember

end Added

theorem discussed_createComment {author : Account} {now : TimePointSec} (discussed : s.Discussed)
    (named : o.author ≠ AccountName.rootPostParent)
    (stored : ∀ above, parent = some above → above ∈ s.comments.objects)
    (run : createComment o author parent now s = .ok u t) : t.Discussed := by
  obtain ⟨middle, inserted, _, _, _, walked⟩ := createComment_spec run
  have added := (Table.insert?_eq_some inserted).2
  have fits := fits_make discussed stored (key_fresh_of_insert? inserted)
  have hangs := Comment.node_make_parent s.nextCommentId o now fun above isParent =>
    discussed.author_ne (stored above isParent)
  cases parent with
  | none =>
    obtain ⟨_, rfl⟩ := pure_eq_ok.mp walked
    have nodes := nodes_of_added added
    have counted := counted_addTop discussed.counted fits rfl hangs
    exact discussed.of_added named (nodes ▸ counted) (congrArg _ nodes)
  | some above =>
    obtain ⟨counted, keys⟩ :=
      counted_addReply discussed.counted fits rfl hangs (stored above rfl) added walked
    exact discussed.of_added named counted keys

theorem discussed_commentEvaluator (valid : o.validate = .ok ()) :
    Respects (Keeping ChainState.Discussed) (commentEvaluator o) where
  related s u t run discussed := by
    obtain ⟨author, parent, found, ⟨_, created⟩ | ⟨comment, _, edited⟩⟩ := commentEvaluator_spec run
    · refine discussed_createComment discussed (author_ne_of_validate valid) (fun above same => ?_)
        created
      rcases (findParent_spec found).2 with ⟨isNone, _⟩ | ⟨other, isSome, _, stored⟩
      · cases isNone.symm.trans same
      · obtain rfl := Option.some.inj (isSome.symm.trans same)
        exact Table.mem_of_find? stored
    · obtain ⟨_, _, _, _, _, _, rfl⟩ := editComment_spec edited
      exact discussed.congr rfl

section Removed

variable {middle : ChainState} {leaf : Comment}

theorem ChainState.Discussed.of_removed (discussed : s.Discussed)
    (counted : Counted (Forest.remove leaf.key middle.nodes))
    (keys : middle.nodes.map Forest.Node.key = s.nodes.map Forest.Node.key) :
    ChainState.Discussed { middle with comments := middle.comments.erase leaf.key } := by
  have nodes : ChainState.nodes { middle with comments := middle.comments.erase leaf.key } =
      Forest.remove leaf.key middle.nodes := by
    unfold ChainState.nodes Forest.remove
    rw [List.filter_map]
    rfl
  refine ⟨nodes ▸ counted, fun key member => discussed.named key ?_⟩
  rw [nodes] at member
  rw [← keys]
  exact (List.filter_sublist.map Forest.Node.key).subset member

open Classical in
theorem counted_removeReply {above : Comment} (counted : Counted s.nodes)
    (none : leaf.children = 0) (leafStored : leaf ∈ s.comments.objects)
    (hangs : leaf.node.parent = some above.key) (stored : above ∈ s.comments.objects)
    (run : countReply (· - 1) above.depth above s = .ok u t) :
    Counted (Forest.remove leaf.key t.nodes) ∧
      t.nodes.map Forest.Node.key = s.nodes.map Forest.Node.key := by
  have leafMember : leaf.node ∈ s.nodes := List.mem_map_of_mem leafStored
  rw [nodes_countReply counted.toIsForest stored run, map_key_recount]
  exact ⟨counted.remove leafMember none fun key => (onWay_of_parent hangs).symm, rfl⟩

theorem counted_removeTop (counted : Counted s.nodes) (none : leaf.children = 0)
    (leafStored : leaf ∈ s.comments.objects) (top : leaf.node.parent = .none) :
    Counted (Forest.remove leaf.key s.nodes) := by
  have leafMember : leaf.node ∈ s.nodes := List.mem_map_of_mem leafStored
  rw [← @recount_of_none _ s.nodes (fun _ => False) _ (· - 1) fun _ => id]
  exact counted.remove leafMember none fun above => iff_of_false id (not_onWay_of_top top)

end Removed

/-- A comment that counts no replies is a leaf. -/
instance (o : DeleteCommentOperation) :
    Respects (Keeping ChainState.Discussed) (deleteCommentEvaluator o) where
  related s u t run discussed := by
    obtain ⟨leaf, after, found, none, _, counting, rfl⟩ := deleteCommentEvaluator_spec run
    have leafStored := Table.mem_of_find? found
    have still : (s.withoutVotes leaf.id).Discussed := discussed.congr rfl
    rcases whenever_eq_ok.mp counting with ⟨reply, counting⟩ | ⟨top, rfl⟩
    · obtain ⟨above, _, read, walked⟩ := bind_eq_ok.mp counting
      obtain ⟨parentFound, rfl⟩ := getComment_eq_ok.mp read
      have hangs : leaf.node.parent = some above.key :=
        (Comment.node_parent_of_ne reply).trans (congrArg some (Table.key_of_find? parentFound).symm)
      obtain ⟨counted, keys⟩ := counted_removeReply still.counted none leafStored hangs
        (Table.mem_of_find? parentFound) walked
      exact discussed.of_removed counted keys
    · have isTop := Comment.node_parent_eq_none.mpr (not_not.mp top)
      have counted := counted_removeTop discussed.counted none leafStored isTop
      exact (discussed.of_removed counted rfl).congr rfl

end Leaves

/-! ### Counting anew -/

section Retally

variable {s : ChainState} {count : AccountName × Text → Nat}

/-- The first loop: what it has passed counts nothing. -/
theorem clear_counting {items : List Comment} (stored : items ⊆ s.comments.objects) :
    forM items (fun comment => putComment { comment with children := 0 }) (s.counting count) =
      .ok () (s.counting fun key => if key ∈ items.map Comment.key then 0 else count key) := by
  induction items generalizing count with
  | nil => rfl
  | cons comment rest inductionHypothesis =>
    obtain ⟨first, further⟩ := List.cons_subset.mp stored
    rw [List.forM_cons, bind_of_ok (putComment_children first 0), inductionHypothesis further]
    refine congrArg _ (ChainState.counting_congr fun other _ => ?_)
    by_cases same : other.key = comment.key
    · have passed : other.key ∈ (comment :: rest).map Comment.key := List.mem_cons.mpr (.inl same)
      rw [if_pos passed, same, Function.update_self, ite_self]
    · rw [Function.update_of_ne same]
      simp only [List.map_cons, List.mem_cons, same, false_or]

open Classical in
/-- One turn of the second loop: the comments above this one count it. -/
theorem tally_step (forest : IsForest s.nodes) (stored : comment ∈ s.comments.objects) :
    whenever (comment.parentAuthor ≠ AccountName.rootPostParent)
        (getComment comment.parentAuthor comment.parentPermlink >>= fun parent =>
          countReply (· + 1) parent.depth parent) (s.counting count) =
      .ok () (s.counting fun key =>
        count key + if Below s.nodes comment.key key then 1 else 0) := by
  have member : comment.node ∈ s.nodes := List.mem_map_of_mem stored
  by_cases reply : comment.parentAuthor ≠ AccountName.rootPostParent
  · obtain ⟨above, found, isParent, _⟩ := exists_parent forest stored reply
    have hangs : comment.node.parent = some above.key :=
      (Comment.node_parent_of_ne reply).trans (congrArg some isParent.symm)
    rw [whenever, if_pos reply,
      bind_of_ok (getComment_of_find? (ChainState.find?_counting found)), Comment.counting_depth,
      countReply_counting forest _ (Table.mem_of_find? found)]
    refine congrArg _ (ChainState.counting_congr fun other _ => ?_)
    have below : Below s.nodes comment.key other.key ↔ UpFrom s.nodes above.key other.key :=
      forest.below_iff member hangs
    simp only [below]
    split
    · rfl
    · rfl
  · have top := Comment.node_parent_eq_none.mpr (not_not.mp reply)
    rw [whenever, if_neg reply]
    refine congrArg (EStateM.Result.ok ()) (ChainState.counting_congr fun other _ => ?_)
    have notBelow : ¬ Below s.nodes comment.key other.key := forest.not_below_of_top member top
    rw [if_neg notBelow, Nat.add_zero]

open Classical in
/-- The second loop: a comment counts what it has passed below it. -/
theorem tally_counting (forest : IsForest s.nodes) {items : List Comment}
    (stored : items ⊆ s.comments.objects) :
    forM (items.map fun comment => comment.counting fun _ => 0) (fun comment =>
        whenever (comment.parentAuthor ≠ AccountName.rootPostParent)
          (getComment comment.parentAuthor comment.parentPermlink >>= fun parent =>
            countReply (· + 1) parent.depth parent)) (s.counting count) =
      .ok () (s.counting fun key =>
        count key + items.countP fun comment => decide (Below s.nodes comment.key key)) := by
  induction items generalizing count with
  | nil => rfl
  | cons comment rest inductionHypothesis =>
    obtain ⟨first, further⟩ := List.cons_subset.mp stored
    rw [List.map_cons, List.forM_cons, Comment.counting_parentAuthor,
      Comment.counting_parentPermlink, bind_of_ok (tally_step forest first),
      inductionHypothesis further]
    refine congrArg _ (ChainState.counting_congr fun other _ => ?_)
    simp only [List.countP_cons, decide_eq_true_eq]
    rw [Nat.add_assoc, Nat.add_left_cancel_iff, Nat.add_comm]

/-- Where every count is right, counting anew finds the same. -/
theorem retallyCommentChildren_eq (counted : Counted s.nodes) :
    retallyCommentChildren s = .ok () s := by
  have forest := counted.toIsForest
  have cleared : forM s.comments.objects
      (fun comment => putComment { comment with children := 0 }) s =
        .ok () (s.counting fun _ => 0) := by
    have loop := @clear_counting s s.childrenAt s.comments.objects (List.Subset.refl _)
    rw [ChainState.counting_self fun _ member => ChainState.childrenAt_of_mem member] at loop
    rw [loop]
    refine congrArg _ (ChainState.counting_congr fun comment member => ?_)
    exact if_pos (List.mem_map_of_mem member)
  have tallied := @tally_counting s (fun _ => 0) forest _ (List.Subset.refl s.comments.objects)
  rw [retallyCommentChildren, get_bind, bind_of_ok cleared, get_bind]
  refine tallied.trans (congrArg _ (ChainState.counting_self fun comment member => ?_))
  rw [Nat.zero_add]
  have counts := counted.children comment.node (List.mem_map_of_mem member)
  rw [descendants, ChainState.nodes, List.countP_map] at counts
  exact counts.symm

end Retally

/-! ### Runs -/

theorem discussed_run {step : ChainStep} (validated : step.validated) :
    Respects (Keeping ChainState.Discussed) step.run :=
  respects_run_of_lasting validated
    (fun _ _ same discussed => discussed.congr (ChainState.nodes_of_lasting same))
    (fun _ _ valid => discussed_commentEvaluator valid) (fun _ _ => inferInstance)

theorem discussed_of_reachable {liquid dollar : ShareType}
    (reached : Reachable (initGenesis liquid dollar) state) : state.Discussed := by
  have start : (initGenesis liquid dollar).Discussed := by
    refine ⟨⟨⟨List.nodup_nil, ?_, ?_⟩, ?_⟩, ?_⟩
    · exact fun _ member => absurd member List.not_mem_nil
    · exact fun _ member => absurd member List.not_mem_nil
    · exact fun _ member => absurd member List.not_mem_nil
    · exact fun _ member => absurd member List.not_mem_nil
  refine @ReachableBy.invariant _ _ ChainState.Discussed start
    (fun before after step discussed validated _ accepted => ?_) _ reached
  exact (discussed_run validated).related before _ after accepted discussed

theorem getCommentById_of_mem (numbered : state.Numbered)
    (stored : comment ∈ state.comments.objects) :
    getCommentById comment.id state = .ok comment state := by
  refine getCommentById_eq_ok.mpr ⟨?_, rfl⟩
  cases found : state.comments.objects.find? fun other => decide (other.id = comment.id) with
  | none => exact absurd (decide_eq_true rfl) (List.find?_eq_none.mp found comment stored)
  | some other =>
    have passes := List.find?_some found
    have same : other.id = comment.id := of_decide_eq_true passes
    exact congrArg some (List.inj_on_of_nodup_map numbered.distinct
      (List.mem_of_find?_eq_some found) stored same)

/-- A post of the genesis account, and in the next block its own reply. -/
def talkingBlocks : List SignedBlock :=
  let reply : CommentOperation := { genesisPost with
    parentAuthor := AccountName.genesis
    parentPermlink := [98]
    permlink := [99] }
  let first := genesisBlock default [genesisTransaction [.comment genesisPost]]
  [first, genesisBlock first.id [{ genesisTransaction [.comment reply] with id := 2 }]]

end Zattera
