import GraphSearch.Cypher.Predicate
import GraphSearch.Proofs.Json.Path
import GraphSearch.Proofs.Results
/-!
# What a condition is rejected for

The value of a property or identity key is read as a condition, and rejected for something that
stands in it.  What is blamed is given as it was written and is found by going down through keys
alone, and the key that is named is the one whose value was read.

* `Rejection.Blames`: the rejection names the key, for something under keys of the value;
* `readDate_blames`, `readOperand_blames`, `readSimilarity_blames`: operands;
* `readCondition_blames`, `readExpression_blames`: conditions and expressions;
* `identityPredicates_blames`, `propertyPredicates_blames`: what is written of them.
-/

namespace GraphSearch

/-! ## 1.  Whole values and fields -/

namespace Rejection

variable {rejection : Rejection} {key : String}

/-- The rejection names the key, and is for the value or for something under keys of it. -/
def Blames (rejection : Rejection) (key : String) (value : Json) : Prop :=
  rejection.key = key ∧
    ∃ names : List String, value.Reaches (names.map Json.PathStep.key) rejection.value

theorem Blames.whole (rejection : Rejection) : rejection.Blames rejection.key rejection.value :=
  ⟨rfl, [], .here⟩

/-- What stands in a field stands in the object. -/
theorem Blames.of_field {fields : List (String × Json)} {field : String × Json}
    (hmem : field ∈ fields) (h : rejection.Blames key field.2) :
    rejection.Blames key (.object fields) := by
  obtain ⟨hkey, names, hreaches⟩ := h
  exact ⟨hkey, field.1 :: names, .key hmem hreaches⟩

end Rejection

namespace Criteria

open Results

variable {key operator : String} {fields : List (String × Json)} {field : String × Json}
  {value : Json} {rejection : Rejection}

/-! ## 2.  Operands -/

/-- A part of a date-time is rejected for itself, or for the date-time it is no part of. -/
theorem readPart_blames (hmem : field ∈ fields)
    (h : readPart key (.object fields) field = .error rejection) :
    rejection.Blames key (.object fields) := by
  rw [readPart] at h
  split at h
  · cases h
    exact .whole _
  · cases h
  · cases h
    exact .of_field hmem (.whole (.invalidOperand key field.1 _))

theorem readDate_blames (h : readDate key fields = .error rejection) :
    rejection.Blames key (.object fields) := by
  rcases bind_eq_error.mp h with h | ⟨parts, -, h⟩
  · obtain ⟨field, hmem, h⟩ := exists_of_mapM_eq_error h
    exact readPart_blames hmem h
  · split at h
    · cases h
    · cases h
      exact .whole _

theorem readOperand_blames (h : readOperand key operator value = .error rejection) :
    rejection.Blames key value := by
  cases value with
  | null | bool _ | number _ | string _ => cases h
  | array items =>
    cases h
    exact .whole _
  | object fields =>
    rw [readOperand] at h
    split at h
    · exact readDate_blames (map_eq_error.mp h)
    · cases h
      exact .whole _

theorem readScalars_blames (h : readScalars key operator value = .error rejection) :
    rejection.Blames key value := by
  simp only [readScalars] at h
  split at h
  · split at h
    · cases h
    · cases h
      exact .whole _
  · cases h
    exact .whole _

theorem readBound_blames (h : readBound key field = .error rejection) :
    rejection.Blames key field.2 := by
  rw [readBound] at h
  split at h
  · cases h
    exact .whole _
  · cases h
  · cases h
    exact .whole _

/-- A similarity condition is rejected as a whole, or for a bound of its range. -/
theorem readSimilarity_blames (h : readSimilarity key value = .error rejection) :
    rejection.Blames key value := by
  simp only [readSimilarity] at h
  -- a guard that fails rejects the whole condition; the bounds are read when all of them hold
  have hwhole : (.error (.invalidOperand key vectorKey value) : Except Rejection Similarity) =
      .error rejection → rejection.Blames key value := by
    rintro ⟨⟩
    exact .whole _
  split at h
  case h_2 => exact hwhole h
  split at h
  case h_2 => exact hwhole h
  split at h
  case h_2 => exact hwhole h
  split at h
  case h_2 => exact hwhole h
  split at h
  case h_1 => cases h
  case h_2 bound bounds hthreshold =>
    rcases bind_eq_error.mp h with h | ⟨threshold, -, h⟩
    · obtain ⟨field, hmem, h⟩ := exists_of_mapM_eq_error (map_eq_error.mp h)
      have hrange : rejection.Blames key (.object (bound :: bounds)) :=
        .of_field hmem (readBound_blames h)
      exact .of_field (Table.mem_of_find? hthreshold) hrange
    · cases h
  case h_3 => exact hwhole h

/-! ## 3.  Conditions and expressions -/

theorem readCondition_blames (h : readCondition key field = .error rejection) :
    rejection.Blames key field.2 := by
  obtain ⟨operator, operand⟩ := field
  simp only [readCondition] at h
  split at h
  · exact readOperand_blames (map_eq_error.mp h)
  split at h
  · split at h
    · cases h
    · cases h
      exact .whole _
  split at h
  · exact readScalars_blames (map_eq_error.mp h)
  · exact readScalars_blames (map_eq_error.mp h)
  · split at h
    · cases h
    · cases h
      exact .whole _
  · split at h
    · cases h
    · cases h
      exact .whole _
  · exact readSimilarity_blames (map_eq_error.mp h)
  · cases h
    exact .whole _

theorem readExpression_blames (h : readExpression key value = .error rejection) :
    rejection.Blames key value := by
  cases value with
  | null | bool _ | number _ | string _ => cases h
  | array items =>
    cases h
    exact .whole _
  | object fields =>
    rw [readExpression] at h
    split at h
    · exact readDate_blames (map_eq_error.mp h)
    · obtain ⟨field, hmem, h⟩ := exists_of_mapM_eq_error (map_eq_error.mp h)
      exact .of_field hmem (readCondition_blames h)

end Criteria

/-! ## 4.  Predicates -/

namespace Cypher

open Criteria Results

variable {id node key : String} {options : Options} {value : Json} {rejection : Rejection}

theorem identityCondition_blames {condition : Condition}
    (h : identityCondition id value condition = .error rejection) :
    rejection.Blames idKey value := by
  cases condition with
  | compare comparator operand =>
    cases operand with
    | scalar value =>
      simp only [identityCondition] at h
      split at h
      · cases h
        exact .whole _
      · cases h
    | date parts =>
      cases h
      exact .whole _
  | oneOf items | noneOf items => cases h
  | text _ _ | present _ | hasType _ | similar _ =>
    cases h
    exact .whole _

theorem identityPredicates_blames (h : identityPredicates options node value = .error rejection) :
    rejection.Blames idKey value := by
  rcases bind_eq_error.mp h with h | ⟨expression, -, h⟩
  · exact readExpression_blames h
  · split at h
    · cases h
    · cases h
    · cases h
      exact .whole _
    · obtain ⟨condition, -, h⟩ := exists_of_mapM_eq_error h
      exact identityCondition_blames h

theorem propertyPredicates_blames
    (h : propertyPredicates options node key value = .error rejection) :
    rejection.Blames key value :=
  readExpression_blames (map_eq_error.mp h)

end Cypher
end GraphSearch
