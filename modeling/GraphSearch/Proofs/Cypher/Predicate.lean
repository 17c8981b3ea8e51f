import GraphSearch.Proofs.Criteria.Grammar
import GraphSearch.Proofs.Cypher.Literal
/-!
# Predicates are well formed

A predicate on a property names the property, its type and its operands, all of which users
write, and is read to its end with no connective outside of brackets: `AND` is written between
the parts of a date-time and in the test that a property is there, each inside of brackets.

The one exception is a similarity condition, whose function is written as the request has it
(`readExpression_similar` says where such a condition comes from).

* `ends_conditionPredicates`, `ends_expressionPredicates`: the predicates of an expression;
* `ends_propertyPredicates`, `ends_identityPredicates`: those of a property and of an identity.
-/

namespace GraphSearch.Cypher

open Criteria Results

variable {stack : List Bracket}

/-! ## 1.  Pieces -/

section

variable {property : Property} (hnode : Ends [] [] property.node)

include hnode

theorem ends_property (stack : List Bracket) : Ends stack stack property.text :=
  (hnode.inside stack).member property.key

theorem ends_any {test : String} (htest : Ends [.round] [.round] test) :
    Ends [] [] (property.any test) := by
  have hopening : Leads [] [.round] "any(value IN " := rfl
  have hwhere : Leads [.round] [.round] " WHERE " := rfl
  have hclosing : Leads [.round] [] ")" := rfl
  have hproperty := ends_property hnode [.round]
  exact ((((hopening.append_ends hproperty).append_leads hwhere rfl).append_ends
    htest).append_leads hclosing rfl).ends

theorem leads_isPresent : Leads [] [] property.isPresent := by
  have hopening : Leads [] [.round] "(" := rfl
  have hsize : Leads [.round] [.round, .round] " IS NOT NULL AND size(" := rfl
  have hclosing : Leads [.round, .round] [] ") > 0)" := rfl
  have houter := ends_property hnode [.round]
  have hinner := ends_property hnode [.round, .round]
  exact (((hopening.append_ends houter).append_leads hsize rfl).append_ends
    hinner).append_leads hclosing rfl

theorem ends_typeCheck (type : PropertyType) :
    Ends [] [] (property.typeCheck {} type) := by
  have hopening : Leads [] [.round] "apoc.convert.fromJsonMap(" := rfl
  have hclosing : Leads [.round] [] ")" := rfl
  have hequals : Leads [] [] " = " := rfl
  -- the key of the types is a plain name, and written as one
  have htypesOf : Options.typesOf {} property.node =
      "apoc.convert.fromJsonMap(" ++ member property.node "__proptypes" ++ ")" := by
    have hname : name "__proptypes" = "__proptypes" := by decide +kernel
    rw [member, hname, ← String.append_assoc, ← String.append_assoc]
    rfl
  have htypes := (hnode.inside [.round]).member "__proptypes"
  have hmap : Ends [] [] (Options.typesOf {} property.node) := by
    rw [htypesOf]
    exact ((hopening.append_ends htypes).append_leads hclosing rfl).ends
  exact ((hmap.member property.key).append_leads hequals rfl).append_ends
    (leads_string type.name).ends

/-! ## 2.  Conditions on a property -/

/-- A condition other than a similarity condition. -/
theorem ends_conditionPredicates {condition : Condition}
    (hsimilar : ∀ similarity, condition ≠ .similar similarity) :
    ∀ text ∈ conditionPredicates {} property condition, Ends [] [] text := by
  cases condition with
  | compare comparator operand =>
    have hcomparator : Leads [.round] [.round] ("value " ++ comparator.symbol ++ " ") := by
      cases comparator <;> rfl
    have hany := ends_any hnode (hcomparator.append_ends (ends_operandText {} operand))
    cases operand with
    | date parts =>
      simp only [conditionPredicates, List.forall_mem_cons]
      exact ⟨ends_typeCheck hnode .datetime, hany, List.forall_mem_nil _⟩
    | scalar value =>
      simp only [conditionPredicates, List.forall_mem_cons]
      exact ⟨hany, List.forall_mem_nil _⟩
  | oneOf items =>
    have hin : Leads [.round] [.round] "value IN " := rfl
    simp only [conditionPredicates, List.forall_mem_cons]
    exact ⟨ends_any hnode (hin.append_ends (leads_scalarList items).ends), List.forall_mem_nil _⟩
  | noneOf items =>
    have hopening : Leads [] [.round] "none(value IN " := rfl
    have hwhere : Leads [.round] [.round] " WHERE value IN " := rfl
    have hclosing : Leads [.round] [] ")" := rfl
    have hproperty := ends_property hnode [.round]
    simp only [conditionPredicates, List.forall_mem_cons]
    exact ⟨((((hopening.append_ends hproperty).append_leads hwhere rfl).append_leads
      (leads_scalarList items)).append_leads hclosing).ends, List.forall_mem_nil _⟩
  | text test needle =>
    have hkeyword : Leads [.round] [.round] ("toLower(value) " ++ test.keyword ++ " ") := by
      cases test <;> rfl
    simp only [conditionPredicates, List.forall_mem_cons]
    exact ⟨ends_any hnode (hkeyword.append_ends (leads_string _).ends), List.forall_mem_nil _⟩
  | present expected =>
    have hnot : Leads [] [] "NOT " := rfl
    cases expected with
    | true =>
      simp only [conditionPredicates, List.forall_mem_cons]
      exact ⟨(leads_isPresent hnode).ends, List.forall_mem_nil _⟩
    | false =>
      simp only [conditionPredicates, List.forall_mem_cons]
      exact ⟨(hnot.append_leads (leads_isPresent hnode)).ends, List.forall_mem_nil _⟩
  | hasType type =>
    simp only [conditionPredicates, List.forall_mem_cons]
    exact ⟨ends_typeCheck hnode type, List.forall_mem_nil _⟩
  | similar similarity => exact absurd rfl (hsimilar similarity)

/-- An expression without similarity conditions. -/
theorem ends_expressionPredicates {expression : Expression}
    (hsimilar : ∀ conditions, expression = .all conditions →
      ∀ similarity, Condition.similar similarity ∉ conditions) :
    ∀ text ∈ expressionPredicates {} property expression, Ends [] [] text := by
  match expression with
  | .equals (.date parts) =>
    intro text htext
    rw [expressionPredicates, List.mem_eraseDups] at htext
    rcases List.mem_cons.mp htext with rfl | htext
    · exact ends_typeCheck hnode .datetime
    · obtain rfl := List.mem_singleton.mp htext
      exact ends_any hnode (ends_partsMatch parts .round)
  | .equals (.scalar value) =>
    have hequals : Leads [.round] [.round] "value = " := rfl
    intro text htext
    obtain rfl := List.mem_singleton.mp htext
    exact ends_any hnode (hequals.append_ends (ends_operandText {} (.scalar value)))
  | .all conditions =>
    intro text htext
    rw [expressionPredicates, List.mem_eraseDups] at htext
    obtain ⟨condition, hcondition, htext⟩ := List.mem_flatMap.mp htext
    refine ends_conditionPredicates hnode (fun similarity heq => ?_) text htext
    exact hsimilar conditions rfl similarity (heq ▸ hcondition)

end

/-! ## 3.  What is read from criteria -/

/-- The value has no `$vector` operator. -/
def UsesNoVector : Json → Prop
  | .object fields => ∀ field ∈ fields, field.1 ≠ vectorKey
  | _ => True

instance : DecidablePred UsesNoVector := fun value =>
  match value with
  | .object fields => inferInstanceAs (Decidable (∀ field ∈ fields, field.1 ≠ vectorKey))
  | .null | .bool _ | .number _ | .string _ | .array _ => isTrue trivial

theorem readCondition_similar {key : String} {field : String × Json} {similarity : Similarity}
    (h : readCondition key field = .ok (.similar similarity)) : field.1 = vectorKey := by
  cases readCondition_eq_ok_iff.mp h with
  | similar _ => rfl

/-- A similarity condition is read from a `$vector` operator. -/
theorem readExpression_similar {key : String} {value : Json} {conditions : List Condition}
    {similarity : Similarity} (h : readExpression key value = .ok (.all conditions))
    (hmem : .similar similarity ∈ conditions) : ¬UsesNoVector value := by
  cases value with
  | object fields =>
    simp only [readExpression] at h
    split at h
    · obtain ⟨_, -, hparts⟩ := map_eq_ok.mp h
      cases hparts
    · obtain ⟨read, hread, heq⟩ := map_eq_ok.mp h
      obtain rfl := Expression.all.inj heq
      obtain ⟨field, hfield, hcondition⟩ := exists_of_mem_mapM hread hmem
      exact fun hvalue => hvalue field hfield (readCondition_similar hcondition)
  | null | bool _ | number _ | string _ | array _ => cases h

theorem ends_propertyPredicates {node key : String} {value : Json} {predicates : List String}
    (hnode : Ends [] [] node) (hvalue : UsesNoVector value)
    (h : propertyPredicates {} node key value = .ok predicates) :
    ∀ text ∈ predicates, Ends [] [] text := by
  obtain ⟨expression, hread, rfl⟩ := map_eq_ok.mp h
  have hproperty : Ends [] [] (Property.mk node key).node := hnode
  refine ends_expressionPredicates hproperty fun conditions heq _ hmem => ?_
  exact readExpression_similar (heq ▸ hread) hmem hvalue

theorem ends_identityCondition {id : String} {whole : Json} {condition : Condition} {text : String}
    (hid : Ends [] [] id) (h : identityCondition id whole condition = .ok text) :
    Ends [] [] text := by
  have hin : Leads [] [] " IN " := rfl
  have hnot : Leads [] [] "NOT " := rfl
  have hspace : Leads [] [] " " := rfl
  match condition with
  | .compare comparator (.scalar value) =>
    have hsymbol : Leads [] [] comparator.symbol := by cases comparator <;> rfl
    rw [identityCondition] at h
    split at h
    · cases h
    · obtain rfl := Except.ok.inj h
      exact (((hid.append_leads hspace rfl).append_leads hsymbol).append_leads
        hspace).append_ends (ends_literal value.toJson [])
  | .oneOf items =>
    obtain rfl := Except.ok.inj h
    exact ((hid.append_leads hin rfl).append_leads (leads_scalarList items)).ends
  | .noneOf items =>
    obtain rfl := Except.ok.inj h
    exact (((hnot.append_ends hid).append_leads hin rfl).append_leads
      (leads_scalarList items)).ends
  | .compare _ (.date _) | .text _ _ | .present _ | .hasType _ | .similar _ => cases h

theorem ends_identityPredicates {node : String} {value : Json} {predicates : List String}
    (hnode : Ends [] [] node) (h : identityPredicates {} node value = .ok predicates) :
    ∀ text ∈ predicates, Ends [] [] text := by
  have hid : Ends [] [] (member node "__id") := hnode.member "__id"
  have hequals : Leads [] [] " = " := rfl
  have hnull : Ends [] [] " IS NULL" := ⟨.inWord ['N', 'U', 'L', 'L'], rfl, rfl⟩
  obtain ⟨expression, -, h⟩ := bind_eq_ok.mp h
  match expression with
  | .equals (.scalar .null) =>
    obtain rfl := Except.ok.inj h
    intro text htext
    obtain rfl := List.mem_singleton.mp htext
    exact hid.append_ends hnull rfl
  | .equals (.scalar (.bool _)) | .equals (.scalar (.number _)) | .equals (.scalar (.string _)) =>
    obtain rfl := Except.ok.inj h
    intro text htext
    obtain rfl := List.mem_singleton.mp htext
    exact (hid.append_leads hequals rfl).append_ends (ends_literal _ [])
  | .equals (.date _) => cases h
  | .all conditions =>
    intro text htext
    obtain ⟨condition, -, hcondition⟩ := exists_of_mem_mapM h htext
    exact ends_identityCondition hid hcondition

end GraphSearch.Cypher
