/-
This file looks at objects facet by facet. A facet is a group of the fields of an
object; who changes some facets of an object leaves its other facets as they were.
-/

import Zattera.Lib.Table

/-- Objects whose fields fall into facets, but for those that tell objects apart. -/
class Faceted (Object : Type) (Facet : outParam Type) where
  /-- The object that has nothing to show. -/
  blank : Object
  /-- The second object with a facet of the first. -/
  copy : Facet → Object → Object → Object
  copy_blank (facet : Facet) : copy facet blank blank = blank
  copy_copy_blank {facet other : Facet} (different : facet ≠ other) (object : Object) :
    copy facet (copy other blank object) blank = copy facet object blank

namespace Faceted

variable {Object Facet : Type} [Faceted Object Facet]

/-- One facet of an object. -/
def only (facet : Facet) (object : Object) : Object := copy facet object blank

/-- An object without some facets. -/
def without (facets : List Facet) (object : Object) : Object :=
  facets.foldl (fun object facet => copy facet blank object) object

theorem only_without {facet : Facet} {facets : List Facet} (outside : facet ∉ facets)
    (object : Object) : only facet (without facets object) = only facet object := by
  induction facets generalizing object with
  | nil => rfl
  | cons first rest inductionHypothesis =>
    rw [List.mem_cons, not_or] at outside
    exact (inductionHypothesis outside.2 _).trans (copy_copy_blank outside.1 object)

/-- Objects that differ in some facets only agree in the others. -/
theorem only_eq_of_without {facet : Facet} {facets : List Facet} {first second : Object}
    (same : without facets first = without facets second) (outside : facet ∉ facets) :
    only facet first = only facet second := by
  rw [← only_without outside first, same, only_without outside second]

/-- An object with some facets of another. -/
def gather (facets : List Facet) (source base : Object) : Object :=
  facets.foldl (fun made facet => copy facet (only facet source) made) base

theorem gather_congr {facets : List Facet} {first second base : Object}
    (agree : ∀ facet ∈ facets, only facet first = only facet second) :
    gather facets first base = gather facets second base := by
  refine List.foldl_ext _ _ _ fun made facet listed => ?_
  rw [agree facet listed]

/-- Objects show the same where all that shows are some facets, and they agree in those. -/
theorem eq_of_gathered {View : Type} {view : Object → View} {first second : Object}
    (facets : List Facet) (gathered : ∀ object, view (gather facets object blank) = view object)
    (agree : ∀ facet ∈ facets, only facet first = only facet second) : view first = view second := by
  rw [← gathered first, ← gathered second, gather_congr agree]

end Faceted

namespace Table

open Faceted

variable {Key Object Facet : Type} {key : Object → Key} [DecidableEq Key] [Faceted Object Facet]
  {table next : Table Key Object key} {object old : Object} {facet : Facet}

/-- A facet of the object under a key, which is blank where there is no object. -/
def facetOf (table : Table Key Object key) (facet : Facet) (k : Key) : Object :=
  ((table.find? k).map (only facet)).getD blank

theorem facetOf_of_find? {k : Key} (found : table.find? k = some object) :
    table.facetOf facet k = only facet object := by
  rw [facetOf, found]
  rfl

theorem facetOf_replace (found : table.find? (key object) = some old)
    (same : only facet object = only facet old) :
    (table.replace object).facetOf facet = table.facetOf facet := by
  funext k
  by_cases changed : k = key object
  · subst changed
    rw [facetOf_of_find? (find?_replace_self found), facetOf_of_find? found, same]
  · rw [facetOf, facetOf, find?_replace_of_ne changed]

theorem facetOf_insert? (added : table.insert? object = some next)
    (fresh : only facet object = blank) : next.facetOf facet = table.facetOf facet := by
  funext k
  by_cases new : k = key object
  · subst new
    rw [facetOf_of_find? (find?_insert?_self added), fresh, facetOf, (insert?_eq_some added).1]
    rfl
  · rw [facetOf, facetOf, find?_insert?_of_ne added new]

/-- An object is still there, as it was but for facets that changed. -/
theorem find?_of_facetOf (keys : next.objects.map key = table.objects.map key) {k : Key}
    (found : table.find? k = some old) : ∃ object, next.find? k = some object ∧
      ∀ facet, next.facetOf facet = table.facetOf facet → only facet object = only facet old := by
  have listed : (next.find? k).isSome := by
    rw [← mem_map_key, keys, mem_map_key, found]
    rfl
  obtain ⟨object, stored⟩ := Option.isSome_iff_exists.mp listed
  refine ⟨object, stored, fun facet agree => ?_⟩
  rw [← facetOf_of_find? stored, agree, facetOf_of_find? found]

/-- What holds of all objects for the sake of some facets, and of the object that has nothing to
show, holds of all objects of a table that agrees in those facets. -/
theorem forall_mem_of_facetOf {P : Object → Prop} (facets : List Facet)
    (shown : ∀ object, P (gather facets object blank) ↔ P object) (empty : P blank)
    (same : ∀ facet ∈ facets, next.facetOf facet = table.facetOf facet)
    (all : ∀ object ∈ table, P object) : ∀ object ∈ next, P object := by
  intro object member
  have agree (facet : Facet) (listed : facet ∈ facets) :
      only facet object = table.facetOf facet (key object) := by
    rw [← same facet listed, facetOf_of_find? (find?_of_mem member)]
  have gathered (other : Object) := propext (shown other)
  cases stored : table.find? (key object) with
  | some old =>
    have seen (facet : Facet) (listed : facet ∈ facets) : only facet object = only facet old := by
      rw [agree facet listed, facetOf_of_find? stored]
    rw [eq_of_gathered facets gathered seen]
    exact all old (mem_of_find? stored)
  | none =>
    have seen (facet : Facet) (listed : facet ∈ facets) : only facet object = only facet blank := by
      rw [agree facet listed, facetOf, stored, only, copy_blank]
      rfl
    rw [eq_of_gathered facets gathered seen]
    exact empty

/-- What objects show by their keys and some facets is the same in tables with the same keys that
agree in those facets. -/
theorem map_eq_of_facetOf {View : Type} {view : Object → View}
    (keys : next.objects.map key = table.objects.map key)
    (same : ∀ first second, key first = key second →
      (∀ facet, next.facetOf facet = table.facetOf facet → only facet first = only facet second) →
      view first = view second) : next.objects.map view = table.objects.map view := by
  have lengths : next.objects.length = table.objects.length := by
    simpa using congrArg List.length keys
  refine List.ext_getElem (by simpa using lengths) fun place here there => ?_
  rw [List.length_map] at here there
  have named : key next.objects[place] = key table.objects[place] := by
    rw [← List.getElem_map key, ← List.getElem_map key]
    exact List.getElem_of_eq keys (by simpa using here)
  have found : next.find? _ = some _ := find?_of_mem (List.getElem_mem here)
  have stored : table.find? _ = some _ := find?_of_mem (List.getElem_mem there)
  rw [List.getElem_map, List.getElem_map]
  refine same _ _ named fun facet agree => ?_
  rw [← facetOf_of_find? found, ← facetOf_of_find? stored, named, agree]

end Table
