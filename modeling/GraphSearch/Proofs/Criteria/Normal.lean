import GraphSearch.Criteria.Directive
import GraphSearch.Criteria.Expression
import GraphSearch.Criteria.Normal
/-!
# What normalization leaves alone

Normalization changes the values that stand under group operators and no key, so whatever is
decided by keys, or by values that are neither objects nor arrays, is decided alike before and
after.

* `normalizeItems_eq_map`, `normalizeFields_eq_map`, `normalizeMembers_eq_map`: items and
  entries are rewritten one by one;
* `find?_normalizeFields`, `keys_normalizeFields`: what is found under a key, and which keys
  there are;
* `kindOf_normalizeUnder`, `isRelated_normalizeEntry`: an entry stays what it is;
* `aliasOf_normalizeFields`, `relationOf_normalizeFields`: directives say the same.
-/

namespace GraphSearch.Criteria

/-! ## 1.  One by one -/

/-- An entry with its value normalized. -/
def normalizeEntry (entry : String × Json) : String × Json :=
  (entry.1, normalizeUnder (isGroupKey entry.1) entry.2)

@[simp] theorem normalizeEntry_fst (entry : String × Json) :
    (normalizeEntry entry).1 = entry.1 := rfl

theorem normalizeItems_eq_map (items : List Json) :
    normalizeItems items = items.map normalize := by
  induction items with
  | nil => rfl
  | cons item items ih => rw [normalizeItems, ih, List.map_cons, normalize]

theorem normalizeFields_eq_map (fields : List (String × Json)) :
    normalizeFields fields = fields.map normalizeEntry := by
  induction fields with
  | nil => rfl
  | cons field fields ih => rw [normalizeFields, ih, List.map_cons, normalizeEntry]

theorem normalizeMembers_eq_map (fields : List (String × Json)) :
    normalizeMembers fields = fields.map fun field => .object [normalizeEntry field] := by
  induction fields with
  | nil => rfl
  | cons field fields ih => rw [normalizeMembers, ih, List.map_cons, normalizeEntry]

@[simp] theorem normalize_object (fields : List (String × Json)) :
    normalize (.object fields) = .object (normalizeFields fields) := rfl

@[simp] theorem normalize_array (items : List Json) :
    normalize (.array items) = .array (normalizeItems items) := rfl

/-! ## 2.  Values without parts -/

@[simp] theorem string?_normalizeUnder (grouped : Bool) (value : Json) :
    (normalizeUnder grouped value).string? = value.string? := by
  cases value <;> cases grouped <;> rfl

@[simp] theorem number?_normalizeUnder (grouped : Bool) (value : Json) :
    (normalizeUnder grouped value).number? = value.number? := by
  cases value <;> cases grouped <;> rfl

@[simp] theorem scalar?_normalizeUnder (grouped : Bool) (value : Json) :
    Scalar.ofJson? (normalizeUnder grouped value) = Scalar.ofJson? value := by
  cases value <;> cases grouped <;> rfl

/-! ## 3.  Keys -/

theorem find?_normalizeFields (key : String) (fields : List (String × Json)) :
    Table.find? key (normalizeFields fields) =
      (Table.find? key fields).map (normalizeUnder (isGroupKey key)) := by
  induction fields with
  | nil => rfl
  | cons field fields ih =>
    obtain ⟨k, value⟩ := field
    by_cases hk : k = key
    · subst hk
      simp only [normalizeFields, Table.find?, if_true, Option.map_some]
    · simp only [normalizeFields, Table.find?, if_neg hk, ih]

@[simp] theorem keys_normalizeFields (fields : List (String × Json)) :
    Table.keys (normalizeFields fields) = Table.keys fields := by
  simp only [Table.keys, normalizeFields_eq_map, List.map_map]
  exact List.map_congr_left fun field _ => rfl

theorem isGroupKey_of_comparator {key : String} {comparator : Comparator}
    (h : Comparator.ofKey? key = some comparator) : isGroupKey key = false := by
  simp only [Comparator.ofKey?] at h
  split at h <;> first | rfl | cases h

theorem isGroupKey_of_component {key : String} {component : Component}
    (h : Component.ofKey? key = some component) : isGroupKey key = false := by
  simp only [Component.ofKey?] at h
  split at h <;> first | rfl | cases h

theorem isGroupKey_of_textTest {key : String} {test : TextTest}
    (h : TextTest.ofKey? key = some test) : isGroupKey key = false := by
  simp only [TextTest.ofKey?] at h
  split at h <;> first | rfl | cases h

theorem mentionsComponent_normalizeFields (fields : List (String × Json)) :
    mentionsComponent (normalizeFields fields) = mentionsComponent fields := by
  rw [mentionsComponent, mentionsComponent, normalizeFields_eq_map, List.any_map]
  rfl

/-! ## 4.  Entries of criteria -/

theorem comparesProperty_normalize (value : Json) :
    comparesProperty (normalize value) = comparesProperty value := by
  cases value with
  | object fields =>
    rw [normalize_object, normalizeFields_eq_map]
    simp only [comparesProperty, List.isEmpty_map, List.all_map, Function.comp_def,
      normalizeEntry_fst]
  | _ => rfl

/-- An entry stays what it is. -/
theorem kindOf_normalizeUnder (key : String) (value : Json) :
    kindOf key (normalizeUnder (isGroupKey key) value) = kindOf key value := by
  rw [kindOf, kindOf, isGroupKey]
  cases hop : GroupOp.ofKey? key with
  | some op => rfl
  | none =>
    rw [Option.isSome_none]
    change _ = if key = idKey then _ else _
    rw [← comparesProperty_normalize value, normalize]

@[simp] theorem isRelated_normalizeEntry (entry : String × Json) :
    isRelated (normalizeEntry entry) = isRelated entry := by
  rw [isRelated, isRelated, normalizeEntry, kindOf_normalizeUnder]

theorem aliasOf_normalizeFields (fields : List (String × Json)) :
    aliasOf (normalizeFields fields) = aliasOf fields := by
  rw [aliasOf, aliasOf, find?_normalizeFields]
  cases Table.find? aliasKey fields with
  | none => rfl
  | some value => exact string?_normalizeUnder _ value

theorem directionOf_normalize (value : Option Json) :
    Direction.ofJson (value.map normalize) = Direction.ofJson value := by
  cases value with
  | none => rfl
  | some value => cases value <;> rfl

theorem relationOf_normalizeFields (fields : List (String × Json)) :
    relationOf (normalizeFields fields) = relationOf fields := by
  rw [relationOf, relationOf, find?_normalizeFields]
  change Relation.ofJson ((Table.find? relationKey fields).map normalize) = _
  cases Table.find? relationKey fields with
  | none => rfl
  | some value =>
    cases value with
    | object inner =>
      have htype : (Table.find? "type" (normalizeFields inner)).bind Json.string? =
          (Table.find? "type" inner).bind Json.string? := by
        rw [find?_normalizeFields]
        cases Table.find? "type" inner with
        | none => rfl
        | some type => exact string?_normalizeUnder _ type
      have hdirection : Direction.ofJson (Table.find? "direction" (normalizeFields inner)) =
          Direction.ofJson (Table.find? "direction" inner) := by
        rw [find?_normalizeFields]
        exact directionOf_normalize _
      show Relation.mk _ _ = Relation.mk _ _
      rw [htype, hdirection]
    | _ => rfl

end GraphSearch.Criteria
