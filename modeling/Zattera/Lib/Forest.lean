/-
This file is about forests that are kept as a list of nodes, each of which names
its parent by a key. What lies below a node is the transitive closure of that. A
node may count what lies below it; the count stays right when a leaf is added or
removed, if exactly the nodes on the way from its parent to the root count it.
-/

import Mathlib.Data.List.Nodup
import Mathlib.Logic.Relation

namespace Forest

/-- A node of a forest: where it hangs, how deep that is, the name of the root of its tree, and the
number of nodes it says are below it. -/
structure Node (Key : Type) where
  key : Key
  parent : Option Key
  depth : Nat
  id : Nat
  root : Nat
  children : Nat
  deriving Inhabited

variable {Key : Type} {nodes other : List (Node Key)} {node leaf : Node Key}
  {child above : Key}

/-- The node under the first key names the second key as its parent. -/
def IsParent (nodes : List (Node Key)) (child above : Key) : Prop :=
  ∃ node ∈ nodes, node.key = child ∧ node.parent = some above

/-- The first key is strictly below the second. -/
def Below (nodes : List (Node Key)) : Key → Key → Prop := Relation.TransGen (IsParent nodes)

/-- The second key is on the way from the first one to its root. -/
def UpFrom (nodes : List (Node Key)) : Key → Key → Prop := Relation.ReflTransGen (IsParent nodes)

open Classical in
/-- The number of nodes strictly below a key. -/
noncomputable def descendants (nodes : List (Node Key)) (above : Key) : Nat :=
  nodes.countP fun node => decide (Below nodes node.key above)

/-- No two nodes share a key, roots are at the top of their own trees, and every other node has a
parent one step above it, in the same tree. -/
structure IsForest (nodes : List (Node Key)) : Prop where
  distinct : (nodes.map Node.key).Nodup
  top : ∀ node ∈ nodes, node.parent = none → node.depth = 0 ∧ node.root = node.id
  reply : ∀ node ∈ nodes, ∀ above, node.parent = some above →
    ∃ parent ∈ nodes, parent.key = above ∧ node.depth = parent.depth + 1 ∧
      node.root = parent.root

/-- A forest whose nodes count all that is strictly below them. -/
structure Counted (nodes : List (Node Key)) : Prop extends IsForest nodes where
  children : ∀ node ∈ nodes, node.children = descendants nodes node.key

/-! ### The way up -/

theorem IsForest.eq_of_key (forest : IsForest nodes) {first second : Node Key}
    (firstMember : first ∈ nodes) (secondMember : second ∈ nodes)
    (same : first.key = second.key) : first = second :=
  List.inj_on_of_nodup_map forest.distinct firstMember secondMember same

theorem IsForest.isParent_iff (forest : IsForest nodes) (member : node ∈ nodes) :
    IsParent nodes node.key above ↔ node.parent = some above := by
  constructor
  · rintro ⟨found, foundMember, same, parent⟩
    rwa [← forest.eq_of_key foundMember member same]
  · exact fun parent => ⟨node, member, rfl, parent⟩

/-- What is above a node is a node, and is less deep. -/
theorem IsForest.depth_lt (forest : IsForest nodes) (below : Below nodes child above)
    (member : node ∈ nodes) (same : node.key = child) :
    ∃ higher ∈ nodes, higher.key = above ∧ higher.depth < node.depth := by
  induction below with
  | single step =>
    subst same
    obtain ⟨parent, parentMember, isAbove, deeper, _⟩ :=
      forest.reply node member _ ((forest.isParent_iff member).mp step)
    exact ⟨parent, parentMember, isAbove, deeper ▸ Nat.lt_succ_self _⟩
  | tail _ step inductionHypothesis =>
    obtain ⟨middle, middleMember, rfl, less⟩ := inductionHypothesis
    obtain ⟨parent, parentMember, isAbove, deeper, _⟩ :=
      forest.reply middle middleMember _ ((forest.isParent_iff middleMember).mp step)
    exact ⟨parent, parentMember, isAbove,
      Nat.lt_trans (deeper ▸ Nat.lt_succ_self _) less⟩

theorem IsForest.mem_of_upFrom (forest : IsForest nodes) (up : UpFrom nodes child above)
    (member : node ∈ nodes) (same : node.key = child) :
    ∃ higher ∈ nodes, higher.key = above ∧ higher.depth ≤ node.depth := by
  rcases Relation.reflTransGen_iff_eq_or_transGen.mp up with rfl | below
  · exact ⟨node, member, same, Nat.le_refl _⟩
  · obtain ⟨higher, higherMember, isAbove, less⟩ := forest.depth_lt below member same
    exact ⟨higher, higherMember, isAbove, Nat.le_of_lt less⟩

/-- A node with a parent is below exactly what is on the way up from that parent. -/
theorem IsForest.below_iff (forest : IsForest nodes) (member : node ∈ nodes) {parent : Key}
    (hangs : node.parent = some parent) :
    Below nodes node.key above ↔ UpFrom nodes parent above := by
  unfold Below UpFrom
  rw [Relation.TransGen.head'_iff]
  constructor
  · rintro ⟨next, step, up⟩
    rw [forest.isParent_iff member, hangs] at step
    rwa [Option.some.inj step]
  · exact fun up => ⟨parent, (forest.isParent_iff member).mpr hangs, up⟩

theorem IsForest.not_below_of_top (forest : IsForest nodes) (member : node ∈ nodes)
    (top : node.parent = none) : ¬ Below nodes node.key above := by
  unfold Below
  rw [Relation.TransGen.head'_iff]
  rintro ⟨next, step, _⟩
  rw [forest.isParent_iff member, top] at step
  cases step

/-- Every node is in a tree whose root it names. -/
theorem IsForest.root_spec (forest : IsForest nodes) (member : node ∈ nodes) :
    ∃ top ∈ nodes, top.parent = none ∧ UpFrom nodes node.key top.key ∧ node.root = top.id := by
  generalize deep : node.depth = depth
  induction depth generalizing node with
  | zero =>
    cases hangs : node.parent with
    | none => exact ⟨node, member, hangs, .refl, (forest.top node member hangs).2⟩
    | some above =>
      obtain ⟨parent, _, _, deeper, _⟩ := forest.reply node member above hangs
      rw [deep] at deeper
      cases deeper
  | succ depth inductionHypothesis =>
    cases hangs : node.parent with
    | none =>
      have shallow := (forest.top node member hangs).1
      rw [deep] at shallow
      cases shallow
    | some above =>
      obtain ⟨parent, parentMember, rfl, deeper, sameRoot⟩ := forest.reply node member above hangs
      obtain ⟨top, topMember, isTop, up, named⟩ :=
        inductionHypothesis parentMember (Nat.succ.inj (deeper.symm.trans deep))
      exact ⟨top, topMember, isTop, up.head ⟨node, member, rfl, hangs⟩, sameRoot.trans named⟩

/-! ### Counts do not matter to the shape -/

/-- A node without its count. -/
def Node.shape (node : Node Key) : Node Key := { node with children := 0 }

theorem isParent_map_shape : IsParent (nodes.map Node.shape) child above ↔
    IsParent nodes child above := by
  constructor
  · rintro ⟨_, member, rfl, parent⟩
    obtain ⟨node, nodeMember, rfl⟩ := List.mem_map.mp member
    exact ⟨node, nodeMember, rfl, parent⟩
  · rintro ⟨node, member, rfl, parent⟩
    exact ⟨node.shape, List.mem_map_of_mem member, rfl, parent⟩

theorem isParent_congr (same : other.map Node.shape = nodes.map Node.shape) :
    IsParent other = IsParent nodes := by
  funext child above
  rw [← propext isParent_map_shape, same, propext isParent_map_shape]

theorem below_congr (same : other.map Node.shape = nodes.map Node.shape) :
    Below other = Below nodes := by
  unfold Below
  rw [isParent_congr same]

theorem mem_of_shape (same : other.map Node.shape = nodes.map Node.shape) (member : node ∈ other) :
    ∃ old ∈ nodes, old.shape = node.shape := by
  have shaped := List.mem_map_of_mem (f := Node.shape) member
  rw [same] at shaped
  exact List.mem_map.mp shaped

theorem fields_of_shape {old : Node Key} (same : old.shape = node.shape) :
    old.key = node.key ∧ old.parent = node.parent ∧ old.depth = node.depth ∧ old.id = node.id ∧
      old.root = node.root := by
  simp only [Node.shape, Node.mk.injEq, and_true] at same
  exact same

theorem IsForest.congr (forest : IsForest nodes)
    (same : other.map Node.shape = nodes.map Node.shape) : IsForest other where
  distinct := by
    have keys : other.map Node.key = nodes.map Node.key := by
      have mapped := congrArg (List.map Node.key) same
      rw [List.map_map, List.map_map] at mapped
      exact mapped
    rw [keys]
    exact forest.distinct
  top node member hangs := by
    obtain ⟨old, oldMember, shape⟩ := mem_of_shape same member
    obtain ⟨_, parent, depth, id, root⟩ := fields_of_shape shape
    rw [← depth, ← id, ← root]
    exact forest.top old oldMember (parent.trans hangs)
  reply node member above hangs := by
    obtain ⟨old, oldMember, shape⟩ := mem_of_shape same member
    obtain ⟨_, parent, depth, _, root⟩ := fields_of_shape shape
    obtain ⟨higher, higherMember, isAbove, deeper, sameRoot⟩ :=
      forest.reply old oldMember above (parent.trans hangs)
    obtain ⟨new, newMember, newShape⟩ := mem_of_shape same.symm higherMember
    obtain ⟨newKey, _, newDepth, _, newRoot⟩ := fields_of_shape newShape
    refine ⟨new, newMember, newKey.trans isAbove, ?_, ?_⟩
    · rw [← depth, deeper, newDepth]
    · rw [← root, sameRoot, newRoot]

open Classical in
theorem descendants_congr (same : other.map Node.shape = nodes.map Node.shape) (above : Key) :
    descendants other above = descendants nodes above := by
  have counted (list : List (Node Key)) : descendants list above =
      (list.map Node.shape).countP fun node => decide (Below list node.key above) := by
    rw [List.countP_map]
    rfl
  rw [counted, counted, same, below_congr same]

section Recount

variable {marked : Key → Prop} [DecidablePred marked] {change : Nat → Nat}

/-- Change the counts of some nodes. -/
def recount (marked : Key → Prop) [DecidablePred marked] (change : Nat → Nat)
    (nodes : List (Node Key)) : List (Node Key) :=
  nodes.map fun node =>
    if marked node.key then { node with children := change node.children } else node

theorem map_shape_recount :
    (recount marked change nodes).map Node.shape = nodes.map Node.shape := by
  unfold recount
  rw [List.map_map]
  refine List.map_congr_left fun node _ => ?_
  rw [Function.comp_apply]
  split
  · rfl
  · rfl

theorem map_key_recount : (recount marked change nodes).map Node.key = nodes.map Node.key := by
  have keys (list : List (Node Key)) : list.map Node.key = (list.map Node.shape).map Node.key := by
    rw [List.map_map]
    rfl
  rw [keys, map_shape_recount, ← keys]

theorem recount_of_none (unmarked : ∀ key, ¬ marked key) : recount marked change nodes = nodes := by
  unfold recount
  refine (List.map_congr_left fun node _ => ?_).trans (List.map_id _)
  rw [if_neg (unmarked _)]
  rfl

/-- Counts that are right after they were changed. -/
theorem counted_recount (forest : IsForest nodes)
    (right : ∀ node ∈ nodes, (if marked node.key then change node.children else node.children) =
      descendants nodes node.key) : Counted (recount marked change nodes) where
  toIsForest := forest.congr map_shape_recount
  children node member := by
    rw [descendants_congr map_shape_recount]
    obtain ⟨old, oldMember, rfl⟩ := List.mem_map.mp member
    have counts := right old oldMember
    split
    · next isMarked =>
      rw [if_pos isMarked] at counts
      exact counts
    · next unmarked =>
      rw [if_neg unmarked] at counts
      exact counts

end Recount

/-! ### Leaves -/

/-- A key is on the way from the parent of a node to the root. -/
def OnWay (nodes : List (Node Key)) (leaf : Node Key) (above : Key) : Prop :=
  ∃ parent, leaf.parent = some parent ∧ UpFrom nodes parent above

theorem onWay_of_parent {parent : Key} (hangs : leaf.parent = some parent) :
    OnWay nodes leaf above ↔ UpFrom nodes parent above := by
  unfold OnWay
  rw [hangs]
  exact ⟨fun ⟨_, same, up⟩ => Option.some.inj same ▸ up, fun up => ⟨parent, rfl, up⟩⟩

theorem not_onWay_of_top (top : leaf.parent = none) : ¬ OnWay nodes leaf above := by
  unfold OnWay
  rw [top]
  rintro ⟨_, impossible, _⟩
  cases impossible

theorem IsForest.below_iff_onWay (forest : IsForest nodes) (member : node ∈ nodes) :
    Below nodes node.key above ↔ OnWay nodes node above := by
  cases hangs : node.parent with
  | none => exact iff_of_false (forest.not_below_of_top member hangs) (not_onWay_of_top hangs)
  | some parent => rw [forest.below_iff member hangs, onWay_of_parent hangs]

/-- The leaf can be hung into the forest. -/
structure Fits (nodes : List (Node Key)) (leaf : Node Key) : Prop where
  fresh : leaf.key ∉ nodes.map Node.key
  top : leaf.parent = none → leaf.depth = 0 ∧ leaf.root = leaf.id
  reply : ∀ above, leaf.parent = some above →
    ∃ parent ∈ nodes, parent.key = above ∧ leaf.depth = parent.depth + 1 ∧
      leaf.root = parent.root

theorem IsForest.add (forest : IsForest nodes) (fits : Fits nodes leaf) :
    IsForest (nodes ++ [leaf]) where
  distinct := by
    rw [List.map_append, List.map_singleton]
    refine List.nodup_append.mpr ⟨forest.distinct, List.nodup_singleton _, ?_⟩
    rintro key member _ only rfl
    rw [List.mem_singleton] at only
    exact fits.fresh (only ▸ member)
  top node member hangs := by
    rcases List.mem_append.mp member with old | new
    · exact forest.top node old hangs
    · rw [List.mem_singleton.mp new] at hangs ⊢
      exact fits.top hangs
  reply node member above hangs := by
    have found : ∃ parent ∈ nodes, parent.key = above ∧ node.depth = parent.depth + 1 ∧
        node.root = parent.root := by
      rcases List.mem_append.mp member with old | new
      · exact forest.reply node old above hangs
      · rw [List.mem_singleton.mp new] at hangs ⊢
        exact fits.reply above hangs
    obtain ⟨parent, parentMember, rest⟩ := found
    exact ⟨parent, List.mem_append_left _ parentMember, rest⟩

/-- The leaf changes nothing above the nodes that were there before. -/
theorem IsForest.upFrom_add (forest : IsForest nodes) (fits : Fits nodes leaf)
    (member : node ∈ nodes) :
    UpFrom (nodes ++ [leaf]) node.key above ↔ UpFrom nodes node.key above := by
  constructor
  · intro up
    induction up with
    | refl => exact .refl
    | tail _ step inductionHypothesis =>
      refine inductionHypothesis.tail ?_
      obtain ⟨middle, middleMember, same, _⟩ :=
        forest.mem_of_upFrom inductionHypothesis member rfl
      obtain ⟨found, foundMember, isMiddle, hangs⟩ := step
      rcases List.mem_append.mp foundMember with old | new
      · exact ⟨found, old, isMiddle, hangs⟩
      · rw [List.mem_singleton.mp new] at isMiddle
        exact absurd (isMiddle ▸ same ▸ List.mem_map_of_mem middleMember) fits.fresh
  · intro up
    refine Relation.ReflTransGen.mono (fun _ _ step => ?_) _ _ up
    obtain ⟨found, foundMember, rest⟩ := step
    exact ⟨found, List.mem_append_left _ foundMember, rest⟩

theorem IsForest.below_add (forest : IsForest nodes) (fits : Fits nodes leaf)
    (member : node ∈ nodes ++ [leaf]) :
    Below (nodes ++ [leaf]) node.key above ↔ OnWay nodes node above := by
  have found : ∀ parent, node.parent = some parent → ∃ higher ∈ nodes, higher.key = parent := by
    intro parent hangs
    rcases List.mem_append.mp member with old | new
    · obtain ⟨higher, higherMember, same, _⟩ := forest.reply node old parent hangs
      exact ⟨higher, higherMember, same⟩
    · rw [List.mem_singleton.mp new] at hangs
      obtain ⟨higher, higherMember, same, _⟩ := fits.reply parent hangs
      exact ⟨higher, higherMember, same⟩
  rw [(forest.add fits).below_iff_onWay member]
  unfold OnWay
  refine exists_congr fun parent => and_congr_right fun hangs => ?_
  obtain ⟨higher, higherMember, rfl⟩ := found parent hangs
  exact forest.upFrom_add fits higherMember

open Classical in
theorem IsForest.descendants_add (forest : IsForest nodes) (fits : Fits nodes leaf) (above : Key) :
    descendants (nodes ++ [leaf]) above =
      descendants nodes above + if OnWay nodes leaf above then 1 else 0 := by
  unfold descendants
  rw [List.countP_append, List.countP_singleton]
  congr 1
  · refine List.countP_congr fun node member => ?_
    rw [decide_eq_true_iff, decide_eq_true_iff, forest.below_iff_onWay member]
    exact forest.below_add fits (List.mem_append_left _ member)
  · simp only [decide_eq_true_eq]
    rw [forest.below_add fits (List.mem_append_right _ List.mem_cons_self)]

open Classical in
/-- What is not there has nothing below it. -/
theorem IsForest.descendants_eq_zero (forest : IsForest nodes)
    (absent : above ∉ nodes.map Node.key) : descendants nodes above = 0 := by
  unfold descendants
  rw [List.countP_eq_zero]
  intro node member
  rw [decide_eq_true_iff]
  intro below
  obtain ⟨higher, higherMember, rfl, _⟩ := forest.depth_lt below member rfl
  exact absent (List.mem_map_of_mem higherMember)

/-- A new leaf is counted on the way from its parent to the root. -/
theorem Counted.add (counted : Counted nodes) (fits : Fits nodes leaf) (none : leaf.children = 0)
    {marked : Key → Prop} [DecidablePred marked]
    (way : ∀ above, marked above ↔ OnWay nodes leaf above) :
    Counted (recount marked (· + 1) (nodes ++ [leaf])) := by
  have forest := counted.toIsForest
  refine counted_recount (forest.add fits) fun node member => ?_
  rw [forest.descendants_add fits]
  rcases List.mem_append.mp member with old | new
  · rw [counted.children node old]
    by_cases isMarked : marked node.key
    · rw [if_pos isMarked, if_pos ((way _).mp isMarked)]
    · rw [if_neg isMarked, if_neg fun onWay => isMarked ((way _).mpr onWay)]
      rfl
  · rw [List.mem_singleton.mp new, forest.descendants_eq_zero fits.fresh]
    have unmarked : ¬ OnWay nodes leaf leaf.key := by
      rintro ⟨parent, hangs, up⟩
      obtain ⟨higher, higherMember, rfl, _⟩ := fits.reply parent hangs
      obtain ⟨top, topMember, same, _⟩ := forest.mem_of_upFrom up higherMember rfl
      exact fits.fresh (same ▸ List.mem_map_of_mem topMember)
    rw [if_neg fun isMarked => unmarked ((way _).mp isMarked), if_neg unmarked, none]

open Classical in
theorem Counted.not_below_leaf (counted : Counted nodes) (leafMember : leaf ∈ nodes)
    (none : leaf.children = 0) (member : node ∈ nodes) : ¬ Below nodes node.key leaf.key := by
  have zero : descendants nodes leaf.key = 0 := (counted.children leaf leafMember).symm.trans none
  rw [descendants, List.countP_eq_zero] at zero
  have unproved := zero node member
  rwa [decide_eq_true_iff] at unproved

section Removal

variable [DecidableEq Key]

/-- The forest without the node under a key. -/
def remove (gone : Key) (nodes : List (Node Key)) : List (Node Key) :=
  nodes.filter fun node => decide (node.key ≠ gone)

theorem mem_remove {gone : Key} : node ∈ remove gone nodes ↔ node ∈ nodes ∧ node.key ≠ gone := by
  rw [remove, List.mem_filter, decide_eq_true_eq]

section Leaf

variable (counted : Counted nodes) (leafMember : leaf ∈ nodes) (none : leaf.children = 0)
include counted leafMember none

theorem Counted.forest_remove : IsForest (remove leaf.key nodes) where
  distinct := counted.distinct.sublist (List.filter_sublist.map Node.key)
  top node member hangs := counted.top node (mem_remove.mp member).1 hangs
  reply node member above hangs := by
    obtain ⟨old, _⟩ := mem_remove.mp member
    obtain ⟨parent, parentMember, isAbove, rest⟩ := counted.reply node old above hangs
    refine ⟨parent, mem_remove.mpr ⟨parentMember, fun isLeaf => ?_⟩, isAbove, rest⟩
    refine counted.not_below_leaf leafMember none old (.single ⟨node, old, rfl, ?_⟩)
    rw [hangs, ← isAbove, isLeaf]

theorem Counted.below_remove (member : node ∈ remove leaf.key nodes) :
    Below (remove leaf.key nodes) node.key above ↔ Below nodes node.key above := by
  obtain ⟨old, proper⟩ := mem_remove.mp member
  -- a step from a key that is not the leaf's is a step without the leaf
  have kept {first second : Key} (step : IsParent nodes first second) (notLeaf : first ≠ leaf.key) :
      IsParent (remove leaf.key nodes) first second := by
    obtain ⟨found, foundMember, rfl, hangs⟩ := step
    exact ⟨found, mem_remove.mpr ⟨foundMember, notLeaf⟩, rfl, hangs⟩
  constructor
  · intro below
    refine Relation.TransGen.mono (fun _ _ step => ?_) _ _ below
    obtain ⟨found, foundMember, rest⟩ := step
    exact ⟨found, (mem_remove.mp foundMember).1, rest⟩
  · intro below
    induction below with
    | single step => exact .single (kept step proper)
    | tail earlier step inductionHypothesis =>
      refine inductionHypothesis.tail (kept step ?_)
      rintro rfl
      exact counted.not_below_leaf leafMember none old earlier

open Classical in
theorem Counted.descendants_remove (above : Key) :
    descendants nodes above =
      descendants (remove leaf.key nodes) above + if Below nodes leaf.key above then 1 else 0 := by
  have only : nodes.filter (fun node => !decide (node.key ≠ leaf.key)) = [leaf] := by
    have nodup : (nodes.filter fun node => !decide (node.key ≠ leaf.key)).Nodup :=
      (List.Nodup.of_map _ counted.distinct).filter _
    refine List.perm_singleton.mp
      ((List.perm_ext_iff_of_nodup nodup (List.nodup_singleton _)).mpr fun node => ?_)
    rw [List.mem_filter, List.mem_singleton, Bool.not_eq_true', decide_eq_false_iff_not, not_not]
    constructor
    · exact fun found => counted.eq_of_key found.1 leafMember found.2
    · rintro rfl
      exact ⟨leafMember, rfl⟩
  unfold descendants
  rw [List.countP_eq_countP_filter_add nodes _ fun node => decide (node.key ≠ leaf.key), only,
    List.countP_singleton]
  congr 1
  · refine List.countP_congr fun node member => ?_
    rw [decide_eq_true_iff, decide_eq_true_iff]
    exact (counted.below_remove leafMember none member).symm
  · simp only [decide_eq_true_eq]

/-- A leaf that is removed is no longer counted on the way from its parent to the root. -/
theorem Counted.remove {marked : Key → Prop} [DecidablePred marked]
    (way : ∀ above, marked above ↔ OnWay nodes leaf above) :
    Counted (Forest.remove leaf.key (recount marked (· - 1) nodes)) := by
  have commute : Forest.remove leaf.key (recount marked (· - 1) nodes) =
      recount marked (· - 1) (Forest.remove leaf.key nodes) := by
    unfold Forest.remove recount
    rw [List.filter_map]
    refine congrArg _ (List.filter_congr fun node _ => ?_)
    rw [Function.comp_apply]
    split
    · rfl
    · rfl
  rw [commute]
  refine counted_recount (counted.forest_remove leafMember none) fun node member => ?_
  obtain ⟨old, _⟩ := mem_remove.mp member
  have counts := counted.children node old
  rw [counted.descendants_remove leafMember none] at counts
  by_cases isMarked : marked node.key
  · rw [if_pos ((counted.below_iff_onWay leafMember).mpr ((way _).mp isMarked))] at counts
    rw [if_pos isMarked, counts]
    exact Nat.add_sub_cancel _ 1
  · rw [if_neg fun below => isMarked ((way _).mpr
      ((counted.below_iff_onWay leafMember).mp below))] at counts
    rw [if_neg isMarked, counts]
    rfl

end Leaf

end Removal

end Forest
