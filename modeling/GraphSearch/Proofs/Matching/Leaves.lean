import GraphSearch.Matching.Terms
/-!
# The leaves of criteria

Criteria are a tree: groups and relations have further criteria inside, and every other entry is
a *leaf*, a test of a record or a directive.  The leaves are what a fact about a whole filter has
to know about the filter.

* `entryLeaves`, `fieldLeaves`, `itemLeaves`, `itemsLeaves`: the leaves of the parts of criteria,
  negations included;
* `declaredNames`: the names that leaves declare, by `$alias` directives;
* `mem_declaredNames_of_aliasOf`: the name of an object's records is declared by a leaf of it.
-/

namespace GraphSearch.Matching

open Criteria

/-! ## 1.  Leaves -/

mutual

/-- The leaves of an entry: the entry itself unless it has criteria inside. -/
def entryLeaves (key : String) : Json → List (String × Json)
  | .object fields =>
    match kindOf key (.object fields) with
    | .group _ | .related => fieldLeaves fields
    | _ => [(key, .object fields)]
  | .array items =>
    match kindOf key (.array items) with
    | .group _ => itemsLeaves items
    | _ => [(key, .array items)]
  | value => [(key, value)]

/-- The leaves of the entries of an object. -/
def fieldLeaves : List (String × Json) → List (String × Json)
  | [] => []
  | (key, value) :: fields => entryLeaves key value ++ fieldLeaves fields

/-- The leaves of a member of a group, or of criteria as a whole. -/
def itemLeaves : Json → List (String × Json)
  | .object fields => fieldLeaves fields
  | .array items => itemsLeaves items
  | _ => []

/-- The leaves of the members of a group that is written as an array. -/
def itemsLeaves : List Json → List (String × Json)
  | [] => []
  | item :: items => itemLeaves item ++ itemsLeaves items

end

theorem entryLeaves_subset_fieldLeaves {key : String} {value : Json}
    {fields : List (String × Json)} (h : (key, value) ∈ fields) :
    entryLeaves key value ⊆ fieldLeaves fields := by
  induction fields with
  | nil => cases h
  | cons entry fields ih =>
    obtain ⟨k, v⟩ := entry
    intro leaf hleaf
    rw [fieldLeaves, List.mem_append]
    rcases List.mem_cons.mp h with heq | h
    · cases heq
      exact Or.inl hleaf
    · exact Or.inr (ih h hleaf)

/-- What is compiled as a leaf is one. -/
theorem entryLeaves_of_leafPredicates {options : Options} {node key : String} {value : Json}
    {predicates : List String} (h : leafPredicates options node key value = .ok predicates) :
    entryLeaves key value = [(key, value)] := by
  rw [leafPredicates] at h
  cases value with
  | object fields =>
    rw [entryLeaves]
    cases hkind : kindOf key (.object fields) with
    | group op | related => simp [hkind] at h
    | identity | declaration | relation | property => rfl
  | array items =>
    rw [entryLeaves]
    cases hkind : kindOf key (.array items) with
    | group op => simp [hkind] at h
    | identity | declaration | relation | property | related => rfl
  | null | bool _ | number _ | string _ => simp only [entryLeaves]

/-! ## 2.  Declared names -/

/-- The names that leaves declare. -/
def declaredNames (leaves : List (String × Json)) : List String :=
  leaves.filterMap fun leaf => if leaf.1 = aliasKey then leaf.2.string? else none

/-- The name an object gives its records is declared by a leaf of the object. -/
theorem mem_declaredNames_of_aliasOf {fields : List (String × Json)} {declared : String}
    (h : aliasOf fields = some declared) : declared ∈ declaredNames (fieldLeaves fields) := by
  obtain ⟨value, hfind, hstring⟩ := Option.bind_eq_some_iff.mp h
  have hmem : (aliasKey, value) ∈ fields := Table.mem_of_find? hfind
  cases value with
  | string text =>
    obtain rfl := Option.some.inj hstring
    refine List.mem_filterMap.mpr ⟨(aliasKey, .string text), ?_, rfl⟩
    exact entryLeaves_subset_fieldLeaves hmem (by simp only [entryLeaves, List.mem_singleton])
  | null | bool _ | number _ | array _ | object _ => cases hstring

end GraphSearch.Matching
