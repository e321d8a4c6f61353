/-
This file shows that `fetch_branch_from` finds the closest common parent of two
blocks. Two lists that lead down from the blocks to one parent decide how far each
loop of the function goes: leveling stops inside of the longer list, and the last
loop stops at the end of both at the latest. What it returns is therefore the
beginning of any two such lists.
-/

import Zattera.Proof.Unwinding

namespace Zattera

open Program

variable {item top first second next last : ForkItem} {items firstItems secondItems : List ForkItem}
  {bound number : Nat} {error : ChainError}

namespace ForkDatabase

variable {forkDb : ForkDatabase}

/-- A list of items that starts at the given one and in which each item follows its next. -/
def Branch (forkDb : ForkDatabase) (top : ForkItem) (items : List ForkItem) : Prop :=
  forkDb.Trail items ∧ items.head? = some top

/-- The last elements of two lists have the same parent. -/
def SameParent (first second : List ForkItem) : Prop :=
  first.getLast?.map ForkItem.previousId = second.getLast?.map ForkItem.previousId

/-- One can get to an item from another one along the pointers. -/
def IsAncestor (forkDb : ForkDatabase) (older item : ForkItem) : Prop :=
  ∃ items, forkDb.Branch item items ∧ items.getLast? = some older

/-- Two branches whose last items have different parents, where the parent of the higher one of
them, or of one of them if they are of one height, does not exist. -/
def Interrupted (forkDb : ForkDatabase) (first second : ForkItem) : Prop :=
  ∃ firstItems firstLast secondItems secondLast,
    forkDb.Branch first firstItems ∧ firstItems.getLast? = some firstLast ∧
    forkDb.Branch second secondItems ∧ secondItems.getLast? = some secondLast ∧
    firstLast.previousId ≠ secondLast.previousId ∧
    (secondLast.num ≤ firstLast.num ∧ forkDb.lock firstLast.prev = none ∨
      firstLast.num ≤ secondLast.num ∧ forkDb.lock secondLast.prev = none)

theorem branch_singleton (item : ForkItem) : forkDb.Branch item [item] :=
  ⟨List.isChain_singleton _, rfl⟩

theorem Branch.take (branch : forkDb.Branch top items) (count : Nat) :
    forkDb.Branch top (items.take (count + 1)) := by
  obtain ⟨trail, starts⟩ := branch
  obtain ⟨rest, rfl⟩ := List.head?_eq_some_iff.mp starts
  exact ⟨List.IsChain.take trail (count + 1), rfl⟩

theorem Branch.cons {prev : ForkItem} (branch : forkDb.Branch prev items)
    (locked : forkDb.lock top.prev = some prev) : forkDb.Branch top (top :: items) := by
  obtain ⟨trail, starts⟩ := branch
  obtain ⟨rest, rfl⟩ := List.head?_eq_some_iff.mp starts
  exact ⟨List.isChain_cons_cons.mpr ⟨locked, trail⟩, rfl⟩

/-- The items of a branch down to some place. -/
theorem Branch.isAncestor (branch : forkDb.Branch top items) {place : Nat}
    (found : items[place]? = some item) : forkDb.IsAncestor item top := by
  refine ⟨items.take (place + 1), branch.take place, ?_⟩
  rw [List.getLast?_take, if_neg (Nat.succ_ne_zero place), Nat.add_sub_cancel, found]
  rfl

/-- The parent of the item at a place is the next one. -/
theorem Branch.parent_take (linked : forkDb.Linked) (branch : forkDb.Branch top items)
    (member : top ∈ forkDb.items) {place : Nat} (found : items[place + 1]? = some next) :
    (items.take (place + 1)).getLast?.map ForkItem.previousId = some next.id := by
  obtain ⟨trail, starts⟩ := branch
  obtain ⟨rest, rfl⟩ := List.head?_eq_some_iff.mp starts
  obtain ⟨inside, rfl⟩ := List.getElem?_eq_some_iff.mp found
  have locked := List.isChain_iff_getElem.mp trail place inside
  have above : (top :: rest)[place]? = some (top :: rest)[place] :=
    List.getElem?_eq_getElem (Nat.lt_of_succ_lt inside)
  have isItem := (trail.num_add linked member above).1
  rw [List.getLast?_take, if_neg (Nat.succ_ne_zero place), Nat.add_sub_cancel, above]
  exact congrArg some (linked.num_of_lock isItem locked).1

/-! ### The loops along a given branch -/

theorem itemsAbove_of_trail (linked : forkDb.Linked) {rest : List ForkItem}
    (trail : forkDb.Trail (item :: rest)) (member : item ∈ forkDb.items)
    (isLast : (item :: rest).getLast? = some last) (low : last.num ≤ number)
    (enough : item.num < bound) :
    ∃ above next lower, forkDb.itemsAbove number bound item = .ok (above, next) ∧
      item :: rest = above ++ next :: lower ∧ next.num = min item.num number := by
  induction rest generalizing item bound with
  | nil =>
    obtain ⟨more, rfl⟩ := Nat.exists_eq_add_of_lt enough
    obtain rfl : item = last := Option.some.inj isLast
    refine ⟨[], item, [], ?_, rfl, (min_eq_left low).symm⟩
    rw [itemsAbove, if_neg low.not_gt]
    rfl
  | cons prev rest inductionHypothesis =>
    obtain ⟨more, rfl⟩ : ∃ more, bound = more + 1 := ⟨bound - 1, by omega⟩
    by_cases high : number < item.num
    · obtain ⟨locked, trail⟩ := List.isChain_cons_cons.mp trail
      have step := (linked.num_of_lock member locked).2
      rw [List.getLast?_cons_cons] at isLast
      obtain ⟨above, next, lower, walked, split, level⟩ :=
        inductionHypothesis trail (mem_of_lock locked).1 isLast (by omega : prev.num < more)
      refine ⟨item :: above, next, lower, ?_, congrArg (item :: ·) split, by omega⟩
      rw [itemsAbove, if_pos high]
      simp only [locked, walked]
      rfl
    · refine ⟨[], item, prev :: rest, ?_, rfl, (min_eq_left (Nat.le_of_not_lt high)).symm⟩
      rw [itemsAbove, if_neg high]
      rfl

theorem itemsApart_of_trails {firstRest secondRest : List ForkItem}
    (firstTrail : forkDb.Trail (first :: firstRest))
    (secondTrail : forkDb.Trail (second :: secondRest))
    (length : firstRest.length = secondRest.length) (enough : firstRest.length < bound)
    (same : SameParent (first :: firstRest) (second :: secondRest)) :
    ∃ firstApart secondApart, forkDb.itemsApart bound first second = .ok (firstApart, secondApart) ∧
      firstApart <+: first :: firstRest ∧ secondApart <+: second :: secondRest := by
  induction bound generalizing first second firstRest secondRest with
  | zero => cases enough
  | succ bound inductionHypothesis =>
    by_cases done : first.previousId = second.previousId
    · refine ⟨[first], [second], ?_, List.prefix_append _ _, List.prefix_append _ _⟩
      rw [itemsApart, if_neg (not_not.mpr done)]
      rfl
    · cases firstRest with
      | nil =>
        obtain rfl := List.eq_nil_of_length_eq_zero length.symm
        exact absurd (Option.some.inj same) done
      | cons firstPrev firstRest =>
        obtain ⟨secondPrev, secondRest, rfl⟩ := List.exists_cons_of_length_eq_add_one length.symm
        obtain ⟨firstLocked, firstTrail⟩ := List.isChain_cons_cons.mp firstTrail
        obtain ⟨secondLocked, secondTrail⟩ := List.isChain_cons_cons.mp secondTrail
        rw [SameParent, List.getLast?_cons_cons, List.getLast?_cons_cons] at same
        obtain ⟨firstApart, secondApart, walked, firstPart, secondPart⟩ :=
          inductionHypothesis firstTrail secondTrail (Nat.succ.inj length)
            (Nat.lt_of_succ_lt_succ enough) same
        refine ⟨first :: firstApart, second :: secondApart, ?_,
          List.cons_prefix_cons.mpr ⟨rfl, firstPart⟩, List.cons_prefix_cons.mpr ⟨rfl, secondPart⟩⟩
        rw [itemsApart, if_pos done]
        simp only [firstLocked, secondLocked, walked]
        rfl

/-- The numbers along a branch. -/
theorem Branch.num_last (linked : forkDb.Linked) (branch : forkDb.Branch top items)
    (member : top ∈ forkDb.items) (isLast : items.getLast? = some last) :
    last.num + items.length = top.num + 1 := by
  obtain ⟨trail, starts⟩ := branch
  obtain ⟨rest, rfl⟩ := List.head?_eq_some_iff.mp starts
  rw [List.getLast?_eq_getElem?] at isLast
  have number := (trail.num_add linked member isLast).2
  rw [List.length_cons] at number ⊢
  omega

/-- With two branches down to one parent at hand, `fetch_branch_from` returns a beginning of each. -/
theorem fetchBranchFrom_of_branches (linked : forkDb.Linked) {first second : BlockId}
    {firstItem secondItem : ForkItem} (firstFound : forkDb.index.find? first = some firstItem)
    (secondFound : forkDb.index.find? second = some secondItem)
    (firstBranch : forkDb.Branch firstItem firstItems)
    (secondBranch : forkDb.Branch secondItem secondItems) (same : SameParent firstItems secondItems) :
    ∃ newBranch oldBranch, forkDb.fetchBranchFrom first second = .ok (newBranch, oldBranch) ∧
      newBranch <+: firstItems ∧ oldBranch <+: secondItems := by
  have firstMember := mem_items.mpr (.inl (Table.mem_of_find? firstFound))
  have secondMember := mem_items.mpr (.inl (Table.mem_of_find? secondFound))
  obtain ⟨firstTrail, firstStarts⟩ := id firstBranch
  obtain ⟨secondTrail, secondStarts⟩ := id secondBranch
  obtain ⟨firstRest, rfl⟩ := List.head?_eq_some_iff.mp firstStarts
  obtain ⟨secondRest, rfl⟩ := List.head?_eq_some_iff.mp secondStarts
  have firstLast := List.getLast?_eq_some_getLast (List.cons_ne_nil firstItem firstRest)
  have secondLast := List.getLast?_eq_some_getLast (List.cons_ne_nil secondItem secondRest)
  generalize (firstItem :: firstRest).getLast _ = firstEnd at firstLast
  generalize (secondItem :: secondRest).getLast _ = secondEnd at secondLast
  have firstNum := firstBranch.num_last linked firstMember firstLast
  have secondNum := secondBranch.num_last linked secondMember secondLast
  rw [List.length_cons] at firstNum secondNum
  have level : firstEnd.num = secondEnd.num := by
    rw [SameParent, firstLast, secondLast] at same
    exact congrArg (fun id : BlockId => id.num + 1) (Option.some.inj same)
  -- both lists reach down to one height, so leveling stays inside of them
  obtain ⟨firstAbove, firstNext, firstLower, firstWalked, firstSplit, firstLevel⟩ :=
    itemsAbove_of_trail linked firstTrail firstMember firstLast
      (by omega : firstEnd.num ≤ secondItem.num) (Nat.lt_succ_self _)
  obtain ⟨secondAbove, secondNext, secondLower, secondWalked, secondSplit, secondLevel⟩ :=
    itemsAbove_of_trail linked secondTrail secondMember secondLast
      (by omega : secondEnd.num ≤ firstNext.num) (Nat.lt_succ_self _)
  have firstPlace : (firstItem :: firstRest)[firstAbove.length]? = some firstNext := by
    rw [firstSplit, List.getElem?_append_right le_rfl, Nat.sub_self]
    rfl
  have secondPlace : (secondItem :: secondRest)[secondAbove.length]? = some secondNext := by
    rw [secondSplit, List.getElem?_append_right le_rfl, Nat.sub_self]
    rfl
  have firstDepth := (firstTrail.num_add linked firstMember firstPlace).2
  have secondDepth := (secondTrail.num_add linked secondMember secondPlace).2
  have firstLength : (firstItem :: firstRest).length = _ := congrArg List.length firstSplit
  have secondLength : (secondItem :: secondRest).length = _ := congrArg List.length secondSplit
  rw [List.length_cons, List.length_append, List.length_cons] at firstLength secondLength
  rw [firstSplit] at firstTrail
  rw [secondSplit] at secondTrail
  have sameLower : SameParent (firstNext :: firstLower) (secondNext :: secondLower) := by
    rw [SameParent, firstSplit, secondSplit, List.getLast?_append_cons,
      List.getLast?_append_cons] at same
    exact same
  obtain ⟨firstApart, secondApart, apart, firstPart, secondPart⟩ :=
    itemsApart_of_trails (List.isChain_append.mp firstTrail).2.1
      (List.isChain_append.mp secondTrail).2.1 (by omega)
      (by omega : firstLower.length < firstNext.num + 1) sameLower
  refine ⟨firstAbove ++ firstApart, secondAbove ++ secondApart, ?_, ?_, ?_⟩
  · unfold fetchBranchFrom
    simp only [firstFound, secondFound]
    exact except_bind_eq_ok.mpr ⟨_, firstWalked, except_bind_eq_ok.mpr ⟨_, secondWalked,
      except_bind_eq_ok.mpr ⟨_, apart, rfl⟩⟩⟩
  · rw [firstSplit]
    exact (List.prefix_append_right_inj _).mpr firstPart
  · rw [secondSplit]
    exact (List.prefix_append_right_inj _).mpr secondPart

/-! ### Failures -/

theorem itemsAbove_eq_error (linked : forkDb.Linked) (member : item ∈ forkDb.items)
    (enough : item.num < bound) (failed : forkDb.itemsAbove number bound item = .error error) :
    ∃ items last, forkDb.Branch item items ∧ items.getLast? = some last ∧ number < last.num ∧
      forkDb.lock last.prev = none := by
  induction bound generalizing item error with
  | zero => cases enough
  | succ bound inductionHypothesis =>
    rw [itemsAbove] at failed
    split at failed
    · next high =>
      cases locked : forkDb.lock item.prev with
      | none => exact ⟨[item], item, branch_singleton item, rfl, high, locked⟩
      | some prev =>
        have step := (linked.num_of_lock member locked).2
        cases walked : forkDb.itemsAbove number bound prev with
        | ok result =>
          simp only [locked, walked] at failed
          cases failed
        | error thrown =>
          obtain ⟨items, last, branch, isLast, above, missing⟩ :=
            inductionHypothesis (mem_of_lock locked).1 (by omega) walked
          refine ⟨item :: items, last, branch.cons locked, ?_, above, missing⟩
          obtain ⟨rest, rfl⟩ := List.head?_eq_some_iff.mp branch.2
          rw [List.getLast?_cons_cons]
          exact isLast
    · cases failed

theorem itemsApart_eq_error (linked : forkDb.Linked) (firstMember : first ∈ forkDb.items)
    (secondMember : second ∈ forkDb.items) (level : first.num = second.num)
    (enough : first.num < bound) (failed : forkDb.itemsApart bound first second = .error error) :
    forkDb.Interrupted first second := by
  induction bound generalizing first second error with
  | zero => cases enough
  | succ bound inductionHypothesis =>
    rw [itemsApart] at failed
    split at failed
    · next apart =>
      cases firstLocked : forkDb.lock first.prev with
      | none =>
        exact ⟨[first], first, [second], second, branch_singleton first, rfl,
          branch_singleton second, rfl, apart, .inl ⟨level.ge, firstLocked⟩⟩
      | some firstPrev =>
        cases secondLocked : forkDb.lock second.prev with
        | none =>
          exact ⟨[first], first, [second], second, branch_singleton first, rfl,
            branch_singleton second, rfl, apart, .inr ⟨level.le, secondLocked⟩⟩
        | some secondPrev =>
          have firstStep := (linked.num_of_lock firstMember firstLocked).2
          have secondStep := (linked.num_of_lock secondMember secondLocked).2
          cases walked : forkDb.itemsApart bound firstPrev secondPrev with
          | ok result =>
            simp only [firstLocked, secondLocked, walked] at failed
            cases failed
          | error thrown =>
            obtain ⟨firstItems, firstLast, secondItems, secondLast, firstBranch, isFirst,
              secondBranch, isSecond, interrupted⟩ := inductionHypothesis
                (mem_of_lock firstLocked).1 (mem_of_lock secondLocked).1 (by omega) (by omega)
                walked
            refine ⟨first :: firstItems, firstLast, second :: secondItems, secondLast,
              firstBranch.cons firstLocked, ?_, secondBranch.cons secondLocked, ?_, interrupted⟩
            · obtain ⟨rest, rfl⟩ := List.head?_eq_some_iff.mp firstBranch.2
              rw [List.getLast?_cons_cons]
              exact isFirst
            · obtain ⟨rest, rfl⟩ := List.head?_eq_some_iff.mp secondBranch.2
              rw [List.getLast?_cons_cons]
              exact isSecond
    · cases failed

theorem itemsAbove_num (linked : forkDb.Linked) {above : List ForkItem}
    (member : item ∈ forkDb.items)
    (walked : forkDb.itemsAbove number bound item = .ok (above, next)) :
    next ∈ forkDb.items ∧ next.num = min item.num number := by
  induction bound generalizing item above with
  | zero => cases walked
  | succ bound inductionHypothesis =>
    rw [itemsAbove] at walked
    split at walked
    · next high =>
      split at walked
      · cases walked
      · next prev locked =>
        obtain ⟨⟨lower, _⟩, below, walked⟩ := except_bind_eq_ok.mp walked
        obtain ⟨_, rfl⟩ := Prod.mk.inj (except_pure_eq_ok.mp walked)
        have step := (linked.num_of_lock member locked).2
        obtain ⟨isItem, level⟩ := inductionHypothesis (mem_of_lock locked).1 below
        exact ⟨isItem, by omega⟩
    · next low =>
      obtain ⟨_, rfl⟩ := Prod.mk.inj (except_pure_eq_ok.mp walked)
      exact ⟨member, (min_eq_left (Nat.le_of_not_lt low)).symm⟩

/-- Branches from the items that leveling leads to are continued up to the given blocks. -/
theorem Branch.extend {above : List ForkItem} (branch : forkDb.Branch next items)
    (isLast : items.getLast? = some last)
    (walked : forkDb.itemsAbove number bound item = .ok (above, next)) :
    forkDb.Branch item (above ++ items) ∧ (above ++ items).getLast? = some last := by
  obtain ⟨trail, starts⟩ := itemsAbove_eq_ok walked
  refine ⟨trail.append starts branch.1 branch.2, ?_⟩
  obtain ⟨rest, rfl⟩ := List.head?_eq_some_iff.mp branch.2
  rw [List.getLast?_append_cons]
  exact isLast

theorem previousId_ne_of_num (apart : first.num ≠ second.num) :
    first.previousId ≠ second.previousId :=
  fun same => apart (congrArg (fun id : BlockId => id.num + 1) same)

theorem fetchBranchFrom_eq_error (linked : forkDb.Linked) {first second : BlockId}
    (failed : forkDb.fetchBranchFrom first second = .error error) :
    forkDb.index.find? first = none ∨ forkDb.index.find? second = none ∨
      ∃ firstItem secondItem, forkDb.index.find? first = some firstItem ∧
        forkDb.index.find? second = some secondItem ∧
        forkDb.Interrupted firstItem secondItem := by
  cases firstFound : forkDb.index.find? first with
  | none => exact .inl rfl
  | some firstItem =>
  cases secondFound : forkDb.index.find? second with
  | none => exact .inr (.inl rfl)
  | some secondItem =>
  refine .inr (.inr ⟨firstItem, secondItem, rfl, rfl, ?_⟩)
  have firstMember := mem_items.mpr (.inl (Table.mem_of_find? firstFound))
  have secondMember := mem_items.mpr (.inl (Table.mem_of_find? secondFound))
  simp only [fetchBranchFrom, firstFound, secondFound] at failed
  cases firstWalked : forkDb.itemsAbove secondItem.num (firstItem.num + 1) firstItem with
  | error thrown =>
    obtain ⟨items, last, branch, isLast, high, missing⟩ :=
      itemsAbove_eq_error linked firstMember (Nat.lt_succ_self _) firstWalked
    exact ⟨items, last, [secondItem], secondItem, branch, isLast, branch_singleton _, rfl,
      previousId_ne_of_num high.ne', .inl ⟨high.le, missing⟩⟩
  | ok firstResult =>
  obtain ⟨firstAbove, firstNext⟩ := firstResult
  obtain ⟨firstIsItem, firstLevel⟩ := itemsAbove_num linked firstMember firstWalked
  cases secondWalked : forkDb.itemsAbove firstNext.num (secondItem.num + 1) secondItem with
  | error thrown =>
    obtain ⟨items, last, branch, isLast, high, missing⟩ :=
      itemsAbove_eq_error linked secondMember (Nat.lt_succ_self _) secondWalked
    obtain ⟨firstBranch, isFirst⟩ := (branch_singleton firstNext).extend rfl firstWalked
    exact ⟨_, firstNext, items, last, firstBranch, isFirst, branch, isLast,
      previousId_ne_of_num high.ne, .inr ⟨high.le, missing⟩⟩
  | ok secondResult =>
  obtain ⟨secondAbove, secondNext⟩ := secondResult
  obtain ⟨secondIsItem, secondLevel⟩ := itemsAbove_num linked secondMember secondWalked
  cases apart : forkDb.itemsApart (firstNext.num + 1) firstNext secondNext with
  | error thrown =>
    obtain ⟨firstItems, firstLast, secondItems, secondLast, firstBranch, isFirst, secondBranch,
      isSecond, interrupted⟩ := itemsApart_eq_error linked firstIsItem secondIsItem (by omega)
        (Nat.lt_succ_self _) apart
    obtain ⟨firstWhole, firstEnds⟩ := firstBranch.extend isFirst firstWalked
    obtain ⟨secondWhole, secondEnds⟩ := secondBranch.extend isSecond secondWalked
    exact ⟨_, firstLast, _, secondLast, firstWhole, firstEnds, secondWhole, secondEnds,
      interrupted⟩
  | ok result =>
    have fetched : forkDb.fetchBranchFrom first second =
        .ok (firstAbove ++ result.1, secondAbove ++ result.2) := by
      simp only [fetchBranchFrom, firstFound, secondFound]
      exact except_bind_eq_ok.mpr ⟨_, firstWalked, except_bind_eq_ok.mpr ⟨_, secondWalked,
        except_bind_eq_ok.mpr ⟨_, apart, rfl⟩⟩⟩
    simp only [fetchBranchFrom, firstFound, secondFound] at fetched
    cases failed.symm.trans fetched

/-! ### The closest common parent -/

/-- What `fetch_branch_from` returns for two items. -/
structure Closest (forkDb : ForkDatabase) (first second : ForkItem)
    (firstItems secondItems : List ForkItem) : Prop where
  firstBranch : forkDb.Branch first firstItems
  secondBranch : forkDb.Branch second secondItems
  same : SameParent firstItems secondItems
  /-- Branches to any other common parent pass by this one. -/
  closest : ∀ firstOthers secondOthers, forkDb.Branch first firstOthers →
    forkDb.Branch second secondOthers → SameParent firstOthers secondOthers →
    firstItems <+: firstOthers ∧ secondItems <+: secondOthers

theorem closest_of_fetched (linked : forkDb.Linked) {first second : BlockId}
    {firstItem secondItem : ForkItem} (firstFound : forkDb.index.find? first = some firstItem)
    (secondFound : forkDb.index.find? second = some secondItem)
    (fetched : forkDb.fetchBranchFrom first second = .ok (firstItems, secondItems)) :
    forkDb.Closest firstItem secondItem firstItems secondItems := by
  obtain ⟨⟨firstTop, isFirst, firstStarts⟩, ⟨secondTop, isSecond, secondStarts⟩, firstTrail,
    secondTrail, same⟩ := fetchBranchFrom_eq_ok fetched
  obtain rfl := Option.some.inj (firstFound.symm.trans isFirst)
  obtain rfl := Option.some.inj (secondFound.symm.trans isSecond)
  refine ⟨⟨firstTrail, firstStarts⟩, ⟨secondTrail, secondStarts⟩, same, ?_⟩
  intro firstOthers secondOthers firstBranch secondBranch parents
  obtain ⟨_, _, again, firstPart, secondPart⟩ := fetchBranchFrom_of_branches linked firstFound
    secondFound firstBranch secondBranch parents
  obtain ⟨rfl, rfl⟩ := Prod.mk.inj (Except.ok.inj (fetched.symm.trans again))
  exact ⟨firstPart, secondPart⟩

/-- Two lists down to a common parent share a block only at the top of one of them. -/
theorem Closest.shared (result : forkDb.Closest first second firstItems secondItems)
    (linked : forkDb.Linked) (firstMember : first ∈ forkDb.items)
    (secondMember : second ∈ forkDb.items) {other : ForkItem} (isFirst : item ∈ firstItems)
    (isSecond : other ∈ secondItems) (sameId : item.id = other.id) :
    (∃ older, forkDb.IsAncestor older first ∧ older.id = second.id) ∨
      ∃ older, forkDb.IsAncestor older second ∧ older.id = first.id := by
  obtain ⟨firstPlace, firstInside, rfl⟩ := List.getElem_of_mem isFirst
  obtain ⟨secondPlace, secondInside, rfl⟩ := List.getElem_of_mem isSecond
  have firstFound := List.getElem?_eq_getElem firstInside
  have secondFound := List.getElem?_eq_getElem secondInside
  cases firstPlace with
  | zero =>
    have top : firstItems[0]? = some first := List.head?_eq_getElem? ▸ result.firstBranch.2
    obtain rfl := Option.some.inj (firstFound.symm.trans top)
    exact .inr ⟨_, result.secondBranch.isAncestor secondFound, sameId.symm⟩
  | succ firstPlace =>
  cases secondPlace with
  | zero =>
    have top : secondItems[0]? = some second := List.head?_eq_getElem? ▸ result.secondBranch.2
    obtain rfl := Option.some.inj (secondFound.symm.trans top)
    exact .inl ⟨_, result.firstBranch.isAncestor firstFound, sameId⟩
  | succ secondPlace =>
    -- the items just above the two have the same parent, so the lists would have ended there
    have parents : SameParent (firstItems.take (firstPlace + 1))
        (secondItems.take (secondPlace + 1)) := by
      rw [SameParent, result.firstBranch.parent_take linked firstMember firstFound,
        result.secondBranch.parent_take linked secondMember secondFound, sameId]
    have short := (result.closest _ _ (result.firstBranch.take firstPlace)
      (result.secondBranch.take secondPlace) parents).1.length_le
    rw [List.length_take] at short
    omega

/-- A block that is one higher than another, and not on top of it, has a branch of its own. -/
theorem Closest.disjoint (result : forkDb.Closest first second firstItems secondItems)
    (linked : forkDb.Linked) (firstMember : first ∈ forkDb.items)
    (secondMember : second ∈ forkDb.items) (level : first.num = second.num + 1)
    (apart : first.previousId ≠ second.id) {other : ForkItem} (isFirst : item ∈ firstItems)
    (isSecond : other ∈ secondItems) : item.id ≠ other.id := by
  intro same
  rcases result.shared linked firstMember secondMember isFirst isSecond same with
    ⟨older, ⟨way, branch, isLast⟩, sameId⟩ | ⟨older, ⟨way, branch, isLast⟩, sameId⟩
  · have number := branch.num_last linked firstMember isLast
    have older_num : older.num = second.num := congrArg BlockId.num sameId
    obtain ⟨top, rfl⟩ : ∃ top, way = [top, older] := by
      obtain ⟨rest, rfl⟩ := List.getLast?_eq_some_iff.mp isLast
      rw [List.length_append, List.length_singleton] at number
      obtain ⟨top, rfl⟩ := List.length_eq_one_iff.mp (by omega : rest.length = 1)
      exact ⟨top, rfl⟩
    obtain ⟨trail, starts⟩ := branch
    obtain rfl : top = first := Option.some.inj starts
    have locked := (List.isChain_cons_cons.mp trail).1
    exact apart ((linked.num_of_lock firstMember locked).1.trans sameId)
  · have number := branch.num_last linked secondMember isLast
    have older_num : older.num = first.num := congrArg BlockId.num sameId
    obtain ⟨rest, rfl⟩ := List.head?_eq_some_iff.mp branch.2
    rw [List.length_cons] at number
    omega

/-- Two blocks with a common ancestor have a closest common parent, which `fetch_branch_from` leads
down to along lists that share no block unless one block is an ancestor of the other; it fails only
when a block or an ancestor on the way is missing. -/
theorem fetchBranchFrom_closest (linked : forkDb.Linked) (first second : BlockId) :
    (∀ firstItem secondItem older, forkDb.index.find? first = some firstItem →
      forkDb.index.find? second = some secondItem →
      forkDb.IsAncestor older firstItem → forkDb.IsAncestor older secondItem →
      ∃ firstItems secondItems,
        forkDb.fetchBranchFrom first second = .ok (firstItems, secondItems) ∧
        forkDb.Closest firstItem secondItem firstItems secondItems ∧
        ∀ item ∈ firstItems, ∀ other ∈ secondItems, item.id = other.id →
          (∃ older, forkDb.IsAncestor older firstItem ∧ older.id = second) ∨
            ∃ older, forkDb.IsAncestor older secondItem ∧ older.id = first) ∧
    ∀ error, forkDb.fetchBranchFrom first second = .error error →
      forkDb.index.find? first = none ∨ forkDb.index.find? second = none ∨
        ∃ firstItem secondItem, forkDb.index.find? first = some firstItem ∧
          forkDb.index.find? second = some secondItem ∧
          forkDb.Interrupted firstItem secondItem := by
  refine ⟨?_, fun error failed => fetchBranchFrom_eq_error linked failed⟩
  intro firstItem secondItem older firstFound secondFound firstAbove secondAbove
  have firstMember := mem_items.mpr (.inl (Table.mem_of_find? firstFound))
  have secondMember := mem_items.mpr (.inl (Table.mem_of_find? secondFound))
  obtain ⟨firstWay, firstDown, firstEnds⟩ := firstAbove
  obtain ⟨secondWay, secondDown, secondEnds⟩ := secondAbove
  obtain ⟨firstItems, secondItems, fetched, _, _⟩ := fetchBranchFrom_of_branches linked firstFound
    secondFound firstDown secondDown (by rw [SameParent, firstEnds, secondEnds])
  have result := closest_of_fetched linked firstFound secondFound fetched
  refine ⟨firstItems, secondItems, fetched, result, fun item isItem other isOther sameId => ?_⟩
  rw [← Table.key_of_find? firstFound, ← Table.key_of_find? secondFound]
  exact result.shared linked firstMember secondMember isItem isOther sameId

end ForkDatabase

/-- A node with two blocks on top of one: the branches of the two blocks are as short as can be. -/
theorem nodeForked_branches :
    let left : ForkItem := ⟨1, some 0, forkLeft⟩
    let right : ForkItem := ⟨2, some 0, forkLeft.twin⟩
    nodeForked.forkDb.fetchBranchFrom left.id right.id = .ok ([left], [right]) ∧
      nodeForked.forkDb.Closest left right [left] [right] := by
  intro left right
  obtain ⟨_, _, sound⟩ := calmRun_nodeForked.sound (blank_initGenesis _ _) rfl (by decide +kernel)
  have firstFound : nodeForked.forkDb.index.find? left.id = some left := by decide +kernel
  have secondFound : nodeForked.forkDb.index.find? right.id = some right := by decide +kernel
  have root (item : ForkItem)
      (locked : nodeForked.forkDb.lock item.prev = some ⟨0, none, forkRoot⟩) :
      nodeForked.forkDb.IsAncestor ⟨0, none, forkRoot⟩ item :=
    ⟨_, (ForkDatabase.branch_singleton _).cons locked, rfl⟩
  obtain ⟨firstItems, secondItems, fetched, closest, _⟩ :=
    (ForkDatabase.fetchBranchFrom_closest sound.coherent.linked left.id right.id).1 left right _
      firstFound secondFound (root left (by decide +kernel)) (root right (by decide +kernel))
  have result : nodeForked.forkDb.fetchBranchFrom left.id right.id = .ok ([left], [right]) := by
    decide +kernel
  obtain ⟨rfl, rfl⟩ := Prod.mk.inj (Except.ok.inj (fetched.symm.trans result))
  exact ⟨result, closest⟩

end Zattera
