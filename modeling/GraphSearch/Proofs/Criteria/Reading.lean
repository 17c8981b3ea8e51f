import GraphSearch.Cypher.Predicate
import GraphSearch.Proofs.Criteria.Normal
import GraphSearch.Proofs.Outline
/-!
# Normal values are read alike

A value under a property or identity key is read to the same expression before and after it is
normalized, or refused with the same outline.  No operator of a property names a group, so what
an operator is applied to is normalized as a value of its own; and below that, only scalars,
numbers and texts are read, which are left alone.

* `readOperand_normalize`, `readScalars_normalize`, `readSimilarity_normalize`: operands;
* `readCondition_normalizeEntry`, `readExpression_normalize`: conditions and expressions;
* `identityPredicates_normalize`, `propertyPredicates_normalize`: what is written of them.
-/

namespace GraphSearch.Criteria

open Results

variable {key operator : String}

/-! ## 1.  Date-times -/

/-- A part of a date-time is a number, which is left alone. -/
theorem readPart_normalizeEntry (whole whole' : Json) (field : String × Json) :
    Alike (readPart key whole field) (readPart key whole' (normalizeEntry field)) := by
  obtain ⟨name, amount⟩ := field
  rw [readPart, readPart, normalizeEntry_fst]
  cases hcomponent : Component.ofKey? name with
  | none => exact Alike.error rfl
  | some component =>
    rw [normalizeEntry, isGroupKey_of_component hcomponent]
    cases amount with
    | number n => cases n <;> exact Alike.refl _
    | _ => exact Alike.error rfl

theorem readDate_normalizeFields (fields : List (String × Json)) :
    Alike (readDate key fields) (readDate key (normalizeFields fields)) := by
  have hparts : Alike (fields.mapM (readPart key (.object fields)))
      ((normalizeFields fields).mapM (readPart key (.object (normalizeFields fields)))) := by
    rw [normalizeFields_eq_map, List.mapM_map]
    exact Alike.mapM (readPart_normalizeEntry _ _) fields
  refine Alike.bind hparts fun parts => ?_
  by_cases hyear : parts.any fun part => part.1 = .year
  · rw [if_pos hyear, if_pos hyear]
    exact Alike.refl _
  · rw [if_neg hyear, if_neg hyear]
    exact Alike.error rfl

/-! ## 2.  Operands -/

theorem readOperand_normalize (operand : Json) :
    Alike (readOperand key operator operand) (readOperand key operator (normalize operand)) := by
  cases operand with
  | object fields =>
    rw [normalize_object, readOperand, readOperand, mentionsComponent_normalizeFields]
    split
    · exact (readDate_normalizeFields fields).map _
    · exact Alike.error rfl
  | array items => exact Alike.error rfl
  | _ => exact Alike.refl _

theorem mapM_scalar?_normalizeItems (items : List Json) :
    (normalizeItems items).mapM Scalar.ofJson? = items.mapM Scalar.ofJson? := by
  rw [normalizeItems_eq_map, List.mapM_map]
  congr 1
  funext item
  exact scalar?_normalizeUnder false item

theorem readScalars_normalize (operand : Json) :
    Alike (readScalars key operator operand) (readScalars key operator (normalize operand)) := by
  cases operand with
  | array items =>
    rw [normalize_array, readScalars, readScalars, mapM_scalar?_normalizeItems]
    cases items.mapM Scalar.ofJson? with
    | some scalars => exact Alike.refl _
    | none => exact Alike.error rfl
  | _ => exact Alike.error rfl

theorem readBound_normalizeEntry (field : String × Json) :
    Alike (readBound key field) (readBound key (normalizeEntry field)) := by
  obtain ⟨name, bound⟩ := field
  rw [readBound, readBound, normalizeEntry_fst]
  cases hcomparator : Comparator.ofKey? name with
  | none => exact Alike.error rfl
  | some comparator =>
    rw [normalizeEntry, isGroupKey_of_comparator hcomparator]
    cases bound with
    | number n => exact Alike.refl _
    | _ => exact Alike.error rfl

theorem mapM_number?_normalizeItems (items : List Json) :
    (normalizeItems items).mapM Json.number? = items.mapM Json.number? := by
  rw [normalizeItems_eq_map, List.mapM_map]
  congr 1
  funext item
  exact number?_normalizeUnder false item

/-- The three fields of a similarity are under no group operator, so each is looked up and
normalized as a value of its own. -/
theorem readSimilarity_normalize (operand : Json) :
    Alike (readSimilarity key operand) (readSimilarity key (normalize operand)) := by
  cases operand with
  | object fields =>
    have hfind : ∀ name, isGroupKey name = false →
        Table.find? name (normalizeFields fields) = (Table.find? name fields).map normalize := by
      intro name hname
      rw [find?_normalizeFields, hname]
      rfl
    simp only [readSimilarity, normalize_object, hfind "fn" rfl, hfind "query" rfl,
      hfind "threshold" rfl]
    rcases Table.find? "fn" fields with
      _ | (_ | _ | _ | function | _ | _)
    case some.string =>
      rcases Table.find? "query" fields with
        _ | (_ | _ | _ | _ | (_ | ⟨first, others⟩) | _)
      case some.array.cons =>
        have hquery : (normalizeUnder false first :: normalizeItems others).mapM Json.number? =
            (first :: others).mapM Json.number? := mapM_number?_normalizeItems (first :: others)
        simp only [Option.map_some, normalize_array, normalizeItems, hquery]
        cases (first :: others).mapM Json.number? with
        | none => exact Alike.error rfl
        | some query =>
          rcases Table.find? "threshold" fields with
            _ | (_ | _ | _ | _ | _ | (_ | ⟨bound, bounds⟩))
          case some.number => exact Alike.refl _
          case some.object.cons =>
            have hbounds : Alike ((bound :: bounds).mapM (readBound key))
                ((normalizeFields (bound :: bounds)).mapM (readBound key)) := by
              rw [normalizeFields_eq_map, List.mapM_map]
              exact Alike.mapM readBound_normalizeEntry _
            exact (hbounds.map Threshold.range).bind fun threshold => Alike.refl _
          all_goals exact Alike.error rfl
      all_goals exact Alike.error rfl
    all_goals exact Alike.error rfl
  | _ => exact Alike.error rfl

/-! ## 3.  Conditions and expressions -/

theorem readCondition_normalizeEntry (field : String × Json) :
    Alike (readCondition key field) (readCondition key (normalizeEntry field)) := by
  obtain ⟨operator, operand⟩ := field
  rw [normalizeEntry]
  cases hcomparator : Comparator.ofKey? operator with
  | some comparator =>
    simp only [readCondition, hcomparator, isGroupKey_of_comparator hcomparator]
    exact (readOperand_normalize operand).map _
  | none =>
    cases htest : TextTest.ofKey? operator with
    | some test =>
      simp only [readCondition, hcomparator, htest, isGroupKey_of_textTest htest]
      cases operand with
      | string needle => exact Alike.refl _
      | _ => exact Alike.error rfl
    | none =>
      simp only [readCondition, hcomparator, htest]
      split
      · exact (readScalars_normalize operand).map _
      · exact (readScalars_normalize operand).map _
      · cases operand with
        | bool expected => exact Alike.refl _
        | _ => exact Alike.error rfl
      · rw [string?_normalizeUnder]
        cases operand.string?.bind PropertyType.ofName? with
        | some type => exact Alike.refl _
        | none => exact Alike.error rfl
      · exact (readSimilarity_normalize operand).map _
      · exact Alike.error rfl

theorem readExpression_normalize (value : Json) :
    Alike (readExpression key value) (readExpression key (normalize value)) := by
  cases value with
  | object fields =>
    rw [normalize_object, readExpression, readExpression, mentionsComponent_normalizeFields]
    split
    · exact (readDate_normalizeFields fields).map _
    · rw [normalizeFields_eq_map, List.mapM_map]
      exact (Alike.mapM readCondition_normalizeEntry fields).map _
  | array items => exact Alike.error rfl
  | _ => exact Alike.refl _

end GraphSearch.Criteria

/-! ## 4.  Predicates -/

namespace GraphSearch.Cypher

open Criteria Results

variable {options : Options} {node key : String}

theorem propertyPredicates_normalize (value : Json) :
    Alike (propertyPredicates options node key value)
      (propertyPredicates options node key (normalize value)) :=
  (readExpression_normalize value).map _

theorem identityCondition_alike (id : String) (whole whole' : Json) (condition : Condition) :
    Alike (identityCondition id whole condition) (identityCondition id whole' condition) := by
  cases condition with
  | compare comparator operand =>
    cases operand with
    | scalar value =>
      rw [identityCondition, identityCondition]
      split
      · exact Alike.error rfl
      · exact Alike.refl _
    | date parts => exact Alike.error rfl
  | oneOf items => exact Alike.refl _
  | noneOf items => exact Alike.refl _
  | _ => exact Alike.error rfl

theorem identityPredicates_normalize (value : Json) :
    Alike (identityPredicates options node value)
      (identityPredicates options node (normalize value)) := by
  refine Alike.bind (readExpression_normalize value) fun expression => ?_
  match expression with
  | .equals (.scalar .null) => exact Alike.refl _
  | .equals (.scalar (.bool _)) | .equals (.scalar (.number _))
  | .equals (.scalar (.string _)) => exact Alike.refl _
  | .equals (.date parts) => exact Alike.error rfl
  | .all conditions =>
    exact Alike.mapM (identityCondition_alike _ value (normalize value)) conditions

end GraphSearch.Cypher
