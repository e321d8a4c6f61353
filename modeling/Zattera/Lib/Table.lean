/-
This file builds the keyed tables a program keeps its objects in. A table holds
its objects oldest first and carries the proof that no two of them share a key,
so an object is determined by its key. Replacing, adding and erasing an object
each come with what they do to a lookup and to a total over the table; sums over
a table are the way its objects enter a balance.
-/

import Mathlib.Algebra.Group.Pi.Lemmas
import Mathlib.Algebra.Order.BigOperators.Group.List
import Mathlib.Algebra.Order.Group.Int
import Mathlib.Data.List.Nodup
import Mathlib.Tactic.Abel

/-- Objects kept under distinct keys, oldest first. -/
structure Table (Key Object : Type) (key : Object → Key) where
  objects : List Object
  distinct : (objects.map key).Nodup

namespace Table

variable {Key Object : Type} {key : Object → Key}

/-! ### Operations -/

/-- The table without objects. -/
def empty : Table Key Object key := ⟨[], List.nodup_nil⟩

instance : Inhabited (Table Key Object key) := ⟨empty⟩

instance : Membership Object (Table Key Object key) := ⟨fun table object => object ∈ table.objects⟩

theorem eq_of_objects {first second : Table Key Object key}
    (same : first.objects = second.objects) : first = second := by
  cases first
  cases second
  cases same
  rfl

variable {table next : Table Key Object key} {object old : Object} {k : Key}

theorem mem_def : object ∈ table ↔ object ∈ table.objects := Iff.rfl

variable [DecidableEq Key]

/-- The object under a key. -/
def find? (table : Table Key Object key) (k : Key) : Option Object :=
  table.objects.find? fun object => decide (key object = k)

theorem map_key_map_replace (objects : List Object) (object : Object) :
    (objects.map fun other => if key other = key object then object else other).map key =
      objects.map key := by
  rw [List.map_map]
  refine List.map_congr_left fun other _ => ?_
  rw [Function.comp_apply]
  split
  · next same => exact same.symm
  · rfl

/-- Put an object in the place of the one under its key. -/
def replace (table : Table Key Object key) (object : Object) : Table Key Object key where
  objects := table.objects.map fun other => if key other = key object then object else other
  distinct := by
    rw [map_key_map_replace]
    exact table.distinct

/-- Add an object under a key that is not taken. -/
def insert? (table : Table Key Object key) (object : Object) : Option (Table Key Object key) :=
  if fresh : key object ∉ table.objects.map key then
    some ⟨table.objects ++ [object], by
      rw [List.map_append, List.map_singleton]
      refine List.nodup_append.mpr ⟨table.distinct, List.nodup_singleton _, ?_⟩
      rintro k member _ only rfl
      rw [List.mem_singleton] at only
      exact fresh (only ▸ member)⟩
  else none

/-- Add an object unless its key is taken. -/
def insertNew (table : Table Key Object key) (object : Object) : Table Key Object key :=
  (table.insert? object).getD table

/-- Drop the objects that fail a test. -/
def filter (table : Table Key Object key) (keep : Object → Bool) : Table Key Object key where
  objects := table.objects.filter keep
  distinct := table.distinct.sublist (List.filter_sublist.map key)

/-- Drop the first objects, as long as they pass a test. -/
def dropWhile (table : Table Key Object key) (drop : Object → Bool) : Table Key Object key where
  objects := table.objects.dropWhile drop
  distinct := table.distinct.sublist ((List.dropWhile_sublist drop).map key)

/-- Drop the object under a key. -/
def erase (table : Table Key Object key) (k : Key) : Table Key Object key :=
  table.filter fun object => decide (key object ≠ k)

/-- The total of a quantity over the objects of a table. -/
def total {Amount : Type} [AddCommMonoid Amount] (table : Table Key Object key)
    (quantity : Object → Amount) : Amount :=
  (table.objects.map quantity).sum

/-! ### Lookups -/

theorem mem_of_find? (found : table.find? k = some object) : object ∈ table :=
  List.mem_of_find?_eq_some found

theorem key_of_find? (found : table.find? k = some object) : key object = k := by
  simpa using List.find?_some (p := fun object => decide (key object = k)) found

/-- An object of the table is the one found under its key. -/
theorem find?_of_mem (member : object ∈ table) : table.find? (key object) = some object := by
  obtain ⟨objects, distinct⟩ := table
  change objects.find? _ = _
  rw [mem_def] at member
  induction objects with
  | nil => simp at member
  | cons head rest inductionHypothesis =>
    rw [List.map_cons, List.nodup_cons] at distinct
    rcases List.mem_cons.mp member with rfl | later
    · rw [List.find?_cons_of_pos (by simp)]
    · have different : key head ≠ key object := by
        intro same
        exact distinct.1 (same ▸ List.mem_map_of_mem later)
      rw [List.find?_cons_of_neg (by simpa using different)]
      exact inductionHypothesis distinct.2 later

theorem find?_eq_some_iff : table.find? k = some object ↔ object ∈ table ∧ key object = k := by
  constructor
  · intro found
    exact ⟨mem_of_find? found, key_of_find? found⟩
  · rintro ⟨member, rfl⟩
    exact find?_of_mem member

theorem find?_eq_none_iff : table.find? k = none ↔ ∀ object ∈ table, key object ≠ k := by
  unfold find?
  simp [List.find?_eq_none, mem_def]

theorem mem_map_key : k ∈ table.objects.map key ↔ (table.find? k).isSome := by
  rw [List.mem_map, Option.isSome_iff_exists]
  exact exists_congr fun object => find?_eq_some_iff.symm

/-- Two tables that look alike through a view that shows keys answer every lookup alike there. -/
theorem map_find?_congr {View : Type} {view : Object → View} {first second : Table Key Object key}
    (keyed : ∀ {a b : Object}, view a = view b → key a = key b)
    (same : second.objects.map view = first.objects.map view) (k : Key) :
    (second.find? k).map view = (first.find? k).map view := by
  cases found : first.find? k with
  | some object =>
    obtain ⟨member, rfl⟩ := find?_eq_some_iff.mp found
    have listed : view object ∈ second.objects.map view := same ▸ List.mem_map_of_mem member
    obtain ⟨other, stored, alike⟩ := List.mem_map.mp listed
    rw [find?_eq_some_iff.mpr ⟨stored, keyed alike⟩, Option.map_some, Option.map_some, alike]
  | none =>
    rw [find?_eq_none_iff] at found
    have absent : second.find? k = none := find?_eq_none_iff.mpr fun other member sameKey => by
      have listed : view other ∈ first.objects.map view := same ▸ List.mem_map_of_mem member
      obtain ⟨object, stored, alike⟩ := List.mem_map.mp listed
      exact found object stored ((keyed alike).trans sameKey)
    rw [absent]

/-! ### What the operations do to a lookup -/

theorem mem_replace {other : Object} :
    other ∈ table.replace object ↔
      (other ∈ table ∧ key other ≠ key object) ∨
        (other = object ∧ ∃ old ∈ table, key old = key object) := by
  simp only [mem_def, replace, List.mem_map]
  constructor
  · rintro ⟨old, member, rfl⟩
    split
    · next same => exact Or.inr ⟨rfl, old, member, same⟩
    · next different => exact Or.inl ⟨member, different⟩
  · rintro (⟨member, different⟩ | ⟨rfl, old, member, same⟩)
    · exact ⟨other, member, if_neg different⟩
    · exact ⟨old, member, if_pos same⟩

theorem find?_replace_self (found : table.find? (key object) = some old) :
    (table.replace object).find? (key object) = some object := by
  refine find?_eq_some_iff.mpr ⟨mem_replace.mpr (Or.inr ⟨rfl, old, ?_⟩), rfl⟩
  exact ⟨mem_of_find? found, key_of_find? found⟩

theorem find?_replace_of_ne (different : k ≠ key object) :
    (table.replace object).find? k = table.find? k := by
  cases found : table.find? k with
  | some old =>
    obtain ⟨member, rfl⟩ := find?_eq_some_iff.mp found
    exact find?_of_mem (mem_replace.mpr (Or.inl ⟨member, different⟩))
  | none =>
    rw [find?_eq_none_iff] at found ⊢
    intro other member
    rcases mem_replace.mp member with ⟨old, _⟩ | ⟨rfl, _⟩
    · exact found other old
    · exact different.symm

/-- Replacing an object by one that looks the same through `view` changes nothing there. -/
theorem map_replace {View : Type} (view : Object → View)
    (found : table.find? (key object) = some old) (same : view object = view old) :
    (table.replace object).objects.map view = table.objects.map view := by
  unfold replace
  rw [List.map_map]
  refine List.map_congr_left fun other member => ?_
  rw [Function.comp_apply]
  split
  · next equal =>
    have found' : table.find? (key other) = some other := find?_of_mem member
    rw [equal, found, Option.some.injEq] at found'
    rw [same, found']
  · rfl

theorem insert?_eq_some (added : table.insert? object = some next) :
    table.find? (key object) = none ∧ next.objects = table.objects ++ [object] := by
  unfold insert? at added
  split at added
  · next fresh =>
    cases added
    refine ⟨find?_eq_none_iff.mpr fun other member same => ?_, rfl⟩
    exact fresh (same ▸ List.mem_map_of_mem member)
  · cases added

theorem insert?_of_find?_eq_none (fresh : table.find? (key object) = none) :
    ∃ next, table.insert? object = some next := by
  unfold insert?
  rw [find?_eq_none_iff] at fresh
  split
  · exact ⟨_, rfl⟩
  · next taken =>
    rw [not_not, List.mem_map] at taken
    obtain ⟨other, member, same⟩ := taken
    exact absurd same (fresh other member)

theorem mem_of_insert? {other : Object} (added : table.insert? object = some next) :
    other ∈ next ↔ other ∈ table ∨ other = object := by
  rw [mem_def, (insert?_eq_some added).2, List.mem_append, List.mem_singleton, mem_def]

theorem find?_insert?_self (added : table.insert? object = some next) :
    next.find? (key object) = some object :=
  find?_of_mem ((mem_of_insert? added).mpr (Or.inr rfl))

theorem find?_insert?_of_ne (added : table.insert? object = some next) (different : k ≠ key object) :
    next.find? k = table.find? k := by
  cases found : table.find? k with
  | some old =>
    obtain ⟨member, rfl⟩ := find?_eq_some_iff.mp found
    exact find?_of_mem ((mem_of_insert? added).mpr (Or.inl member))
  | none =>
    rw [find?_eq_none_iff] at found ⊢
    intro other member
    rcases (mem_of_insert? added).mp member with old | rfl
    · exact found other old
    · exact different.symm

theorem find?_insertNew :
    (table.insertNew object).find? k =
      if k = key object then some ((table.find? k).getD object) else table.find? k := by
  unfold insertNew
  cases added : table.insert? object with
  | some next =>
    obtain ⟨absent, _⟩ := insert?_eq_some added
    rw [Option.getD_some]
    split
    · next same =>
      subst same
      rw [find?_insert?_self added, absent, Option.getD_none]
    · next different => exact find?_insert?_of_ne added different
  | none =>
    rw [Option.getD_none]
    split
    · next same =>
      subst same
      cases found : table.find? (key object) with
      | some old => rfl
      | none =>
        obtain ⟨next, inserted⟩ := insert?_of_find?_eq_none found
        rw [added] at inserted
        cases inserted
    · rfl

theorem find?_filter {keep : Object → Bool} (found : table.find? k = some object)
    (kept : keep object) : (table.filter keep).find? k = some object := by
  obtain ⟨member, isKey⟩ := find?_eq_some_iff.mp found
  exact find?_eq_some_iff.mpr ⟨List.mem_filter.mpr ⟨member, kept⟩, isKey⟩

theorem mem_erase : object ∈ table.erase k ↔ object ∈ table ∧ key object ≠ k := by
  simp [mem_def, erase, filter]

section All

variable {P : Object → Prop} {table next : Table Key Object key} {object : Object}
  (all : ∀ other ∈ table, P other)

include all

theorem forall_mem_insert? (added : table.insert? object = some next) (new : P object) :
    ∀ other ∈ next, P other := by
  intro other member
  rcases (mem_of_insert? added).mp member with old | rfl
  · exact all other old
  · exact new

theorem forall_mem_replace (new : P object) : ∀ other ∈ table.replace object, P other := by
  intro other member
  rcases mem_replace.mp member with ⟨old, _⟩ | ⟨rfl, _⟩
  · exact all other old
  · exact new

theorem forall_mem_erase (k : Key) : ∀ other ∈ table.erase k, P other :=
  fun other member => all other (mem_erase.mp member).1

end All

theorem find?_erase_self : (table.erase k).find? k = none :=
  find?_eq_none_iff.mpr fun _ member => (mem_erase.mp member).2

theorem find?_erase_of_ne {other : Key} (different : other ≠ k) :
    (table.erase k).find? other = table.find? other := by
  cases found : table.find? other with
  | some old =>
    obtain ⟨member, rfl⟩ := find?_eq_some_iff.mp found
    exact find?_of_mem (mem_erase.mpr ⟨member, different⟩)
  | none =>
    rw [find?_eq_none_iff] at found ⊢
    exact fun object member => found object (mem_erase.mp member).1

theorem erase_replace : (table.replace object).erase (key object) = table.erase (key object) := by
  have same (objects : List Object) :
      (objects.map fun other => if key other = key object then object else other).filter
          (fun other => decide (key other ≠ key object)) =
        objects.filter fun other => decide (key other ≠ key object) := by
    induction objects with
    | nil => rfl
    | cons other rest inductionHypothesis =>
      rw [List.map_cons, List.filter_cons, List.filter_cons, inductionHypothesis]
      by_cases isKey : key other = key object
      · simp [isKey]
      · simp [isKey]
  unfold erase filter replace
  congr 1
  exact same table.objects

/-- Putting an object back as it is changes nothing. -/
theorem replace_of_find? (found : table.find? (key object) = some object) :
    table.replace object = table := by
  have same : (table.objects.map fun other => if key other = key object then object else other) =
      table.objects := by
    refine (List.map_congr_left fun other member => ?_).trans (List.map_id _)
    split
    · next sameKey =>
      rw [← sameKey, find?_of_mem member] at found
      exact (Option.some.inj found).symm
    · rfl
  unfold replace
  congr 1

theorem replace_replace {first second : Object} (same : key first = key second) :
    (table.replace first).replace second = table.replace second := by
  unfold replace
  congr 1
  rw [List.map_map]
  refine List.map_congr_left fun other _ => ?_
  rw [Function.comp_apply, same]
  split <;> rfl

/-! ### Working through a list of objects -/

/-- The listed objects are in the table, each once. -/
def Lists (table : Table Key Object key) (items : List Object) : Prop :=
  (items.map key).Nodup ∧ ∀ item ∈ items, table.find? (key item) = some item

/-- The objects that pass a test, in any order. -/
theorem lists_of_perm_filter {keep : Object → Bool} {items : List Object}
    (sorted : items.Perm (table.objects.filter keep)) : table.Lists items := by
  constructor
  · exact (sorted.map key).nodup_iff.mpr (table.filter keep).distinct
  · intro item member
    exact find?_of_mem (List.mem_of_mem_filter (sorted.mem_iff.mp member))

theorem lists_objects (table : Table Key Object key) : table.Lists table.objects :=
  ⟨table.distinct, fun _ member => find?_of_mem member⟩

theorem Lists.head {item : Object} {rest : List Object} (listed : table.Lists (item :: rest)) :
    table.find? (key item) = some item :=
  listed.2 item List.mem_cons_self

/-- After a change under the key of the first object, the others are still listed. -/
theorem Lists.tail {item : Object} {rest : List Object} (listed : table.Lists (item :: rest))
    (others : ∀ k, k ≠ key item → next.find? k = table.find? k) : next.Lists rest := by
  obtain ⟨distinct, found⟩ := listed
  rw [List.map_cons, List.nodup_cons] at distinct
  refine ⟨distinct.2, fun other member => ?_⟩
  rw [others (key other) fun same => distinct.1 (same ▸ List.mem_map_of_mem member)]
  exact found other (List.mem_cons_of_mem item member)

/-! ### What the operations do to a total -/

omit [DecidableEq Key] in
theorem total_apply {Index Amount : Type} [AddCommMonoid Amount] (table : Table Key Object key)
    (quantity : Object → Index → Amount) (i : Index) :
    table.total quantity i = table.total fun object => quantity object i := by
  have evaluated := map_list_sum (Pi.evalAddMonoidHom (fun _ => Amount) i)
    (table.objects.map quantity)
  rw [List.map_map] at evaluated
  exact evaluated

omit [DecidableEq Key] in
theorem total_add {Amount : Type} [AddCommMonoid Amount] (table : Table Key Object key)
    (first second : Object → Amount) :
    (table.total fun object => first object + second object) =
      table.total first + table.total second := by
  unfold total
  rw [List.sum_map_add]

omit [DecidableEq Key] in
/-- What a filter drops does not count if its quantities are zero. -/
theorem total_filter {Amount : Type} [AddCommMonoid Amount] {keep : Object → Bool}
    {quantity : Object → Amount}
    (none_ : ∀ object ∈ table, keep object = false → quantity object = 0) :
    (table.filter keep).total quantity = table.total quantity := by
  change ((table.objects.filter keep).map quantity).sum = (table.objects.map quantity).sum
  have each : ∀ object ∈ table.objects, keep object = false → quantity object = 0 := none_
  generalize table.objects = objects at each
  induction objects with
  | nil => rfl
  | cons first rest inductionHypothesis =>
    have later := inductionHypothesis fun object member => each object (List.mem_cons_of_mem _ member)
    rw [List.filter_cons, List.map_cons, List.sum_cons]
    split
    · rw [List.map_cons, List.sum_cons, later]
    · next dropped =>
      rw [later, each first List.mem_cons_self (Bool.not_eq_true _ ▸ dropped), zero_add]

omit [DecidableEq Key] in
/-- A quantity none of the objects has. -/
theorem total_eq_zero {Amount : Type} [AddCommMonoid Amount] {quantity : Object → Amount}
    (none_ : ∀ object ∈ table, quantity object = 0) : table.total quantity = 0 := by
  refine List.sum_eq_zero fun amount member => ?_
  obtain ⟨object, stored, rfl⟩ := List.mem_map.mp member
  exact none_ object stored

section Totals

variable {Amount : Type} [AddCommGroup Amount]

/-- Replacing an object exchanges its contribution to a total. -/
theorem total_replace (quantity : Object → Amount) (found : table.find? (key object) = some old) :
    (table.replace object).total quantity =
      table.total quantity - quantity old + quantity object := by
  obtain ⟨objects, distinct⟩ := table
  change (objects.find? _) = _ at found
  change ((objects.map _).map quantity).sum = (objects.map quantity).sum - _ + _
  induction objects with
  | nil => simp at found
  | cons head rest inductionHypothesis =>
    rw [List.map_cons, List.nodup_cons] at distinct
    rw [List.map_cons, List.map_cons, List.sum_cons, List.map_cons, List.sum_cons]
    by_cases same : key head = key object
    · rw [List.find?_cons_of_pos (by simpa using same), Option.some.injEq] at found
      subst found
      have untouched : rest.map (fun other => if key other = key object then object else other) =
          rest := by
        refine (List.map_congr_left fun other member => if_neg fun equal => ?_).trans
          (List.map_id rest)
        exact distinct.1 (same.trans equal.symm ▸ List.mem_map_of_mem member)
      rw [untouched, if_pos same]
      abel
    · rw [List.find?_cons_of_neg (by simpa using same)] at found
      rw [if_neg same, inductionHypothesis distinct.2 found]
      abel

theorem total_insert? (quantity : Object → Amount) (added : table.insert? object = some next) :
    next.total quantity = table.total quantity + quantity object := by
  unfold total
  rw [(insert?_eq_some added).2, List.map_append, List.sum_append, List.map_singleton,
    List.sum_singleton]

/-- Erasing an object takes its contribution out of a total. -/
theorem total_erase (quantity : Object → Amount) (found : table.find? k = some old) :
    (table.erase k).total quantity = table.total quantity - quantity old := by
  obtain ⟨objects, distinct⟩ := table
  change (objects.find? _) = _ at found
  change ((objects.filter _).map quantity).sum = (objects.map quantity).sum - _
  induction objects with
  | nil => simp at found
  | cons head rest inductionHypothesis =>
    rw [List.map_cons, List.nodup_cons] at distinct
    rw [List.map_cons, List.sum_cons]
    by_cases same : key head = k
    · rw [List.find?_cons_of_pos (by simpa using same), Option.some.injEq] at found
      subst found
      have untouched : rest.filter (fun object => decide (key object ≠ k)) = rest := by
        rw [List.filter_eq_self]
        intro other member
        refine decide_eq_true fun equal => ?_
        exact distinct.1 (same.trans equal.symm ▸ List.mem_map_of_mem member)
      rw [List.filter_cons_of_neg (by simpa using same), untouched]
      abel
    · rw [List.find?_cons_of_neg (by simpa using same)] at found
      rw [List.filter_cons_of_pos (by simpa using same), List.map_cons, List.sum_cons,
        inductionHypothesis distinct.2 found]
      abel

end Totals

end Table
