/-
This file proves that the counts of the follow plugin agree with its follow
objects, up to the width of a counter. One operation changes the number of
follows of an account and the counter beside it by the same amount, and a
counter is only ever adjusted for an old follow if it exists, because the follow
was counted when it was made. The counters have 32 bits and wrap.
-/

import Zattera.Plugin.Follow

namespace Zattera

open Program

/-! ### The bits of an operation -/

/-- The blog bit says whether the blog is followed. -/
theorem followBits_blog (what : List String) (follower following : AccountName) :
    Follow.isBlog ⟨follower, following, (followBits what).1⟩ = (followBits what).2 := by
  -- The bits that can be set are the second and the third.
  let Proper (state : UInt16 × Bool) : Prop :=
    state = (0, false) ∨ state = (2, true) ∨ state = (4, false) ∨ state = (6, true)
  have proper : Proper (followBits what) := by
    unfold followBits
    refine List.foldlRecOn what _ (Or.inl rfl) fun state holds target _ => ?_
    cases FollowType.ofString target <;> rcases holds with rfl | rfl | rfl | rfl <;>
      simp only [Proper] <;> decide
  rcases proper with same | same | same | same <;> simp only [Follow.isBlog, same] <;>
    decide

/-! ### Counts and numbers -/

namespace FollowPlugin

/-- The counter of an account, zero if it has none. -/
def count (plugin : FollowPlugin) (role : FollowRole) (account : AccountName) : UInt32 :=
  ((plugin.counts.find? account).getD { account }).count role

def counts? (plugin : FollowPlugin) (account : AccountName) : Prop :=
  (plugin.counts.find? account).isSome

/-- One if the follow counts for the account in this role. -/
def share (role : FollowRole) (account : AccountName) (follow : Follow) : Int :=
  if follow.account role = account ∧ follow.isBlog then 1 else 0

/-- The number of follows that count for the account in this role. -/
def number (plugin : FollowPlugin) (role : FollowRole) (account : AccountName) : Int :=
  plugin.follows.total (share role account)

/-- The counters agree with the follow objects, and the ends of every follow have counters. -/
structure Agrees (plugin : FollowPlugin) : Prop where
  counted : ∀ role account,
    ((plugin.count role account).toNat : Int) = plugin.number role account % 4294967296
  kept : ∀ follow ∈ plugin.follows, ∀ role, plugin.counts? (follow.account role)

variable {plugin : FollowPlugin}

theorem account_withCount (counts : FollowCount) (count : UInt32) (role : FollowRole) :
    (counts.withCount count role).account = counts.account := by
  cases role <;> rfl

theorem count_withCount (counts : FollowCount) (count : UInt32) (role other : FollowRole) :
    (counts.withCount count role).count other =
      if other = role then count else counts.count other := by
  cases role <;> cases other <;> rfl

/-- The counts of an account are replaced by adjusted ones, which exist from then on. -/
theorem find?_adjustCount {wasFollowed isFollowing : Bool} {role : FollowRole}
    {account other : AccountName} (existing : wasFollowed = true → plugin.counts? account) :
    (plugin.adjustCount wasFollowed isFollowing role account).counts.find? other =
      if other = account then
        let old := (plugin.counts.find? account).getD { account }
        some (old.withCount (adjustedCount wasFollowed isFollowing (old.count role)) role)
      else plugin.counts.find? other := by
  unfold adjustCount
  cases found : plugin.counts.find? account with
  | none =>
    have new : wasFollowed = false := by
      rw [← Bool.not_eq_true]
      intro was
      have present := existing was
      rw [counts?, found] at present
      exact absurd present (by decide)
    subst new
    have isCount : adjustedCount false isFollowing (FollowCount.count { account } role) =
        if isFollowing then 1 else 0 := by
      cases role <;> cases isFollowing <;> rfl
    change Table.find? (Table.insertNew _ _) other = _
    rw [Table.find?_insertNew, account_withCount, Option.getD_none]
    dsimp only
    rw [isCount]
    split
    · next same => rw [same, found, Option.getD_none]
    · rfl
  | some old =>
    have isKey := Table.key_of_find? found
    have present : plugin.counts.find? (old.withCount
        (adjustedCount wasFollowed isFollowing (old.count role)) role).account = some old := by
      rw [account_withCount, isKey]
      exact found
    have replaced := Table.find?_replace_self present
    rw [account_withCount, isKey] at replaced
    change Table.find? (Table.replace _ _) other = _
    split
    · next same =>
      subst same
      exact replaced
    · next different =>
      exact Table.find?_replace_of_ne (by rwa [account_withCount, isKey])

theorem count_adjustCount {wasFollowed isFollowing : Bool} {role other : FollowRole}
    {account name : AccountName} (existing : wasFollowed = true → plugin.counts? account) :
    (plugin.adjustCount wasFollowed isFollowing role account).count other name =
      if other = role ∧ name = account then adjustedCount wasFollowed isFollowing (plugin.count role name)
      else plugin.count other name := by
  unfold count
  rw [find?_adjustCount existing]
  by_cases same : name = account
  · subst same
    simp only [if_true, and_true, Option.getD_some, count_withCount]
  · simp only [same, if_false, and_false]

theorem counts?_adjustCount {wasFollowed isFollowing : Bool} {role : FollowRole}
    {account name : AccountName} (existing : wasFollowed = true → plugin.counts? account) :
    (plugin.adjustCount wasFollowed isFollowing role account).counts? name ↔
      name = account ∨ plugin.counts? name := by
  unfold counts?
  rw [find?_adjustCount existing]
  split
  · next same => simp [same]
  · next different => simp [different]

theorem account_of_key {old follow : Follow} (same : old.key = follow.key) (role : FollowRole) :
    old.account role = follow.account role := by
  cases role with
  | follower => exact (Prod.mk.inj same).1
  | following => exact (Prod.mk.inj same).2

/-- A follow object takes the place of the old one in every number. -/
theorem number_putFollow (follow : Follow) (role : FollowRole) (account : AccountName) :
    (plugin.putFollow follow).number role account = plugin.number role account -
      (if follow.account role = account ∧ plugin.wasFollowed follow.key then 1 else 0) +
        share role account follow := by
  unfold number putFollow wasFollowed
  cases found : plugin.follows.find? follow.key with
  | none =>
    obtain ⟨next, added⟩ := Table.insert?_of_find?_eq_none found
    dsimp only
    rw [Table.insertNew, added, Option.getD_some, Table.total_insert? _ added]
    simp
  | some old =>
    rw [Table.total_replace _ found, share, account_of_key (Table.key_of_find? found)]

theorem mem_putFollow {follow other : Follow} (member : other ∈ (plugin.putFollow follow).follows) :
    other ∈ plugin.follows ∨ other = follow := by
  unfold putFollow at member
  cases found : plugin.follows.find? follow.key with
  | none =>
    obtain ⟨next, added⟩ := Table.insert?_of_find?_eq_none found
    rw [found] at member
    dsimp only at member
    rw [Table.insertNew, added, Option.getD_some] at member
    exact (Table.mem_of_insert? added).mp member
  | some old =>
    rw [found] at member
    exact (Table.mem_replace.mp member).imp And.left And.left

theorem toNat_adjustedCount (wasFollowed isFollowing : Bool) (count : UInt32) :
    ((adjustedCount wasFollowed isFollowing count).toNat : Int) =
      (count.toNat - (if wasFollowed then 1 else 0) + (if isFollowing then 1 else 0)) %
        4294967296 := by
  have bound := count.toNat_lt
  cases wasFollowed <;> cases isFollowing <;>
    simp only [adjustedCount, UInt32.toNat_add, UInt32.toNat_sub, UInt32.toNat_ofNat, if_true,
      Bool.false_eq_true, if_false] <;>
    omega

/-! ### One operation and a run -/

section Record

variable (agrees : plugin.Agrees) (follow : Follow)

include agrees

/-- A follow that counted before has counters. -/
theorem counts?_of_wasFollowed (role : FollowRole) (was : plugin.wasFollowed follow.key = true) :
    plugin.counts? (follow.account role) := by
  unfold wasFollowed at was
  split at was
  · cases was
  · next old found =>
    rw [← account_of_key (Table.key_of_find? found)]
    exact agrees.kept old (Table.mem_of_find? found) role

theorem counts?_putFollow (was : plugin.wasFollowed follow.key = true) :
    (plugin.putFollow follow).counts? follow.follower :=
  counts?_of_wasFollowed agrees follow .follower was

theorem counts?_adjusted (isFollowing : Bool) (was : plugin.wasFollowed follow.key = true) :
    ((plugin.putFollow follow).adjustCount (plugin.wasFollowed follow.key) isFollowing .follower
      follow.follower).counts? follow.following :=
  (counts?_adjustCount (counts?_putFollow agrees follow)).mpr
    (Or.inr (counts?_of_wasFollowed agrees follow .following was))

theorem count_record (isFollowing : Bool) (role : FollowRole) (account : AccountName) :
    (plugin.record follow isFollowing).count role account =
      if account = follow.account role then
        adjustedCount (plugin.wasFollowed follow.key) isFollowing (plugin.count role account)
      else plugin.count role account := by
  unfold record
  simp only [count_adjustCount (counts?_adjusted agrees follow isFollowing),
    count_adjustCount (counts?_putFollow agrees follow)]
  cases role with
  | follower =>
    simp only [reduceCtorEq, false_and, if_false, true_and]
    rfl
  | following =>
    simp only [reduceCtorEq, false_and, if_false, true_and]
    rfl

/-- A follow changes the numbers and the counters alike. -/
theorem agrees_record : (plugin.record follow follow.isBlog).Agrees := by
  constructor
  · intro role account
    have counted := agrees.counted role account
    change _ = (plugin.putFollow follow).number role account % 4294967296
    rw [count_record agrees, number_putFollow, share]
    by_cases isEnd : follow.account role = account
    · subst isEnd
      rw [if_pos rfl, toNat_adjustedCount]
      simp only [true_and]
      omega
    · rw [if_neg (Ne.symm isEnd)]
      simp only [isEnd, false_and, if_false]
      omega
  · intro other member role
    unfold record
    dsimp only
    rw [counts?_adjustCount (counts?_adjusted agrees follow _),
      counts?_adjustCount (counts?_putFollow agrees follow)]
    rcases mem_putFollow member with old | rfl
    · exact Or.inr (Or.inr (agrees.kept other old role))
    · cases role with
      | follower => exact Or.inr (Or.inl rfl)
      | following => exact Or.inl rfl

end Record

theorem agrees_doApply (agrees : plugin.Agrees) {o : FollowOperation} {next : FollowPlugin}
    (applied : plugin.doApply o = .ok next) : next.Agrees := by
  obtain ⟨_, -, made⟩ := except_bind_eq_ok.mp applied
  rw [except_pure_eq_ok, ← followBits_blog o.what o.follower o.following] at made
  rw [← made]
  exact agrees_record agrees _

theorem agrees_run (operations : List FollowOperation) (agrees : plugin.Agrees) :
    (plugin.run operations).Agrees := by
  unfold run
  refine List.foldlRecOn operations _ agrees fun plugin agrees o _ => ?_
  split
  · next changed applied => exact agrees_doApply agrees applied
  · exact agrees

theorem agrees_empty : Agrees {} :=
  ⟨fun role account => by cases role <;> rfl, fun follow member => absurd member List.not_mem_nil⟩

theorem number_eq_countP (plugin : FollowPlugin) (role : FollowRole) (account : AccountName) :
    plugin.number role account =
      plugin.follows.objects.countP fun follow => follow.account role = account ∧ follow.isBlog := by
  unfold number Table.total
  induction plugin.follows.objects with
  | nil => rfl
  | cons follow rest inductionHypothesis =>
    rw [List.map_cons, List.sum_cons, inductionHypothesis, List.countP_cons, share]
    simp only [decide_eq_true_eq]
    split <;> omega

theorem count_run (operations : List FollowOperation) (role : FollowRole) (account : AccountName) :
    ((run {} operations).count role account).toNat =
      ((run {} operations).follows.objects.countP fun follow =>
        follow.account role = account ∧ follow.isBlog) % 4294967296 := by
  have counted := (agrees_run operations agrees_empty).counted role account
  rw [number_eq_countP] at counted
  exact_mod_cast counted

end FollowPlugin

/-- After every sequence of operations the counts of every account are the numbers of the follow
objects with the blog bit that it made and that name it, modulo the width of a counter. -/
theorem followCounts_run (operations : List FollowOperation) (account : AccountName) :
    let plugin := FollowPlugin.run {} operations
    let counts := (plugin.counts.find? account).getD { account }
    counts.followingCount.toNat = (plugin.follows.objects.countP fun follow =>
        follow.follower = account ∧ follow.isBlog) % 2 ^ 32 ∧
      counts.followerCount.toNat = (plugin.follows.objects.countP fun follow =>
        follow.following = account ∧ follow.isBlog) % 2 ^ 32 :=
  ⟨FollowPlugin.count_run operations .follower account,
    FollowPlugin.count_run operations .following account⟩

/-! ### A counter that wraps -/

/-- One account follows others, one after the other. -/
def followOthers (count : Nat) : List FollowOperation :=
  (List.range count).map fun i => ⟨⟨0⟩, ⟨i + 1⟩, ["blog"]⟩

theorem follows_followOthers (count : Nat) :
    (FollowPlugin.run {} (followOthers count)).follows.objects =
      (List.range count).map fun i => ⟨⟨0⟩, ⟨i + 1⟩, 2⟩ := by
  induction count with
  | zero => rfl
  | succ count inductionHypothesis =>
    unfold followOthers FollowPlugin.run at *
    rw [List.range_succ, List.map_append, List.foldl_append, List.map_append,
      ← inductionHypothesis]
    generalize (List.map _ (List.range count)).foldl _ _ = plugin at *
    have fresh : plugin.follows.find? (⟨0⟩, ⟨count + 1⟩) = none := by
      rw [Table.find?_eq_none_iff]
      intro follow member
      rw [Table.mem_def, inductionHypothesis, List.mem_map] at member
      obtain ⟨i, small, rfl⟩ := member
      rw [List.mem_range] at small
      simp [Follow.key]
      omega
    obtain ⟨next, added⟩ := @Table.insert?_of_find?_eq_none _ _ Follow.key _
      ⟨⟨0⟩, ⟨count + 1⟩, 2⟩ _ fresh
    have recorded : (plugin.putFollow ⟨⟨0⟩, ⟨count + 1⟩, 2⟩).follows = next := by
      simp only [FollowPlugin.putFollow, Follow.key, fresh, Table.insertNew, added, Option.getD_some]
    have isNext := (Table.insert?_eq_some added).2
    have applied : plugin.doApply ⟨⟨0⟩, ⟨count + 1⟩, ["blog"]⟩ =
        .ok (plugin.record ⟨⟨0⟩, ⟨count + 1⟩, 2⟩ true) := by
      have isBits : followBits ["blog"] = (2, true) := by decide
      unfold FollowPlugin.doApply ensure
      rw [isBits]
      rfl
    rw [List.map_singleton, List.foldl_cons, List.foldl_nil, applied]
    exact (congrArg Table.objects recorded).trans isNext

theorem counts_followOthers (count : Nat) : ∃ operations account,
    let plugin := FollowPlugin.run {} operations
    (plugin.follows.objects.countP fun follow => follow.follower = account ∧ follow.isBlog) =
        count ∧
      ((plugin.counts.find? account).getD { account }).followingCount.toNat =
        count % 4294967296 := by
  have all : ((FollowPlugin.run {} (followOthers count)).follows.objects.countP fun follow =>
      follow.follower = ⟨0⟩ ∧ follow.isBlog) = count := by
    rw [follows_followOthers, List.countP_map, List.countP_eq_length.mpr, List.length_range]
    intro i _
    simp [Follow.isBlog]
  refine ⟨followOthers count, ⟨0⟩, all, ?_⟩
  have counted := FollowPlugin.count_run (followOthers count) .follower ⟨0⟩
  exact counted.trans (congrArg (· % 4294967296) all)

/-- An account that follows 2^32 others has a following count of zero. -/
theorem followingCount_wraps : ∃ operations account,
    let plugin := FollowPlugin.run {} operations
    (plugin.follows.objects.countP fun follow => follow.follower = account ∧ follow.isBlog) =
        2 ^ 32 ∧
      ((plugin.counts.find? account).getD { account }).followingCount = 0 := by
  obtain ⟨operations, account, all, counted⟩ := counts_followOthers (2 ^ 32)
  exact ⟨operations, account, all, UInt32.toNat_inj.mp (counted.trans (Nat.mod_self _))⟩

end Zattera
