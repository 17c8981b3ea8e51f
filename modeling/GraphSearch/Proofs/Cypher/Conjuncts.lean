import GraphSearch.Proofs.Cypher.Predicate
import GraphSearch.Proofs.FirstOccurrences
/-!
# The predicates of an expression, in order

Each condition on a property brings its predicates, and the predicates of the expression are what
the conditions bring, one after another, each text where it occurs first (`KeepsFirst`).

Every comparison with a date-time brings the assertion that the property is declared to be one, in
front of the comparison.  Only the first of these assertions is kept, and what has to be shown is
that it still stands in front of every comparison that is kept.  So no comparison may occur earlier
than the assertion does, as a predicate of another condition.  A comparison with a date-time that
is made of its parts ends in a brace and two brackets, and no other predicate does; whatever brings
a text that ends so brings the assertion just before it (`eq_of_endsLikeDateTest`).

* `endsLikeDateTest_typeCheck`, `endsLikeDate_scalar`, `endsLikeDateTest_similarity`: how the other
  predicates end;
* `expressionPredicates_keepsFirst`: the predicates of an expression.
-/

namespace GraphSearch.Cypher

open Criteria

/-! ## 1.  How predicates end -/

/-- The text ends like a date-time that is made of its parts. -/
def endsLikeDate (text : String) : Bool := [')', '\x7d'].isPrefixOf text.toList.reverse

/-- The text ends like the comparison with a date-time that is made of its parts. -/
def endsLikeDateTest (text : String) : Bool := [')', ')', '\x7d'].isPrefixOf text.toList.reverse

/-- The text has a last character, and that is no bracket. -/
def EndsWithoutBracket (text : String) : Prop :=
  ∃ c rest, text.toList.reverse = c :: rest ∧ ')' ≠ c

section

variable {options : Options} {property : Property} {text : String}

theorem EndsWithoutBracket.append (h : EndsWithoutBracket text) (start : String) :
    EndsWithoutBracket (start ++ text) := by
  obtain ⟨c, rest, htext, hc⟩ := h
  refine ⟨c, rest ++ start.toList.reverse, ?_, hc⟩
  rw [String.toList_append, List.reverse_append, htext, List.cons_append]

theorem EndsWithoutBracket.endsLikeDate_eq (h : EndsWithoutBracket text) :
    endsLikeDate text = false := by
  obtain ⟨c, rest, htext, hc⟩ := h
  rw [endsLikeDate, htext]
  simp [List.isPrefixOf, hc]

theorem EndsWithoutBracket.endsLikeDateTest_eq (h : EndsWithoutBracket text) :
    endsLikeDateTest text = false := by
  obtain ⟨c, rest, htext, hc⟩ := h
  rw [endsLikeDateTest, htext]
  simp [List.isPrefixOf, hc]

theorem endsWithoutBracket_string (raw : String) : EndsWithoutBracket (string raw) :=
  ⟨'"', ("\"" ++ String.join (raw.toList.map Json.escape)).toList.reverse,
    by simp [string, Json.quote], by decide⟩

theorem endsWithoutBracket_listOf (items : List String) : EndsWithoutBracket (listOf items) :=
  ⟨']', ("[" ++ ",".intercalate items).toList.reverse, by simp [listOf], by decide⟩

/-- A number does not end in a bracket, nor does the blank before it. -/
theorem IsNumeral.endsWithoutBracket (h : IsNumeral text) : EndsWithoutBracket (" " ++ text) := by
  have hbracket : ∀ c ∈ numeralChars, ')' ≠ c := forall_numeralChars rfl
  cases hlast : text.toList.reverse with
  | nil =>
    rw [List.reverse_eq_nil_iff] at hlast
    exact ⟨' ', [], by simp [hlast], by decide⟩
  | cons c rest =>
    have hc : c ∈ text.toList := List.mem_reverse.mp (hlast ▸ List.mem_cons_self)
    exact .append ⟨c, rest, hlast, hbracket c (h c hc)⟩ " "

theorem endsLikeDateTest_any (property : Property) (test : String) :
    endsLikeDateTest (property.any test) =
      endsLikeDate ("any(value IN " ++ property.text ++ " WHERE " ++ test) := by
  simp [endsLikeDateTest, endsLikeDate, Property.any]

theorem endsLikeDate_dateLiteral (start : String) (parts : DateParts) :
    endsLikeDate (start ++ dateLiteral parts) = true := by
  simp [endsLikeDate, dateLiteral]

theorem operandText_string (options : Options) (s : String) :
    operandText options (.scalar (.string s)) =
      if isInstant s then "datetime(" ++ string s ++ ")" else string s := rfl

/-- A date-time that is given as a text ends in a quotation mark before its bracket. -/
theorem endsLikeDate_scalar (start : String) (value : Scalar) :
    endsLikeDate (start ++ " " ++ operandText options (.scalar value)) = false := by
  cases value with
  | null => exact ((endsWithoutBracket_string _).append _).endsLikeDate_eq
  | bool b =>
    cases b with
    | true =>
      have hword : EndsWithoutBracket "true" := ⟨'e', ['u', 'r', 't'], rfl, by decide⟩
      exact (hword.append _).endsLikeDate_eq
    | false =>
      have hword : EndsWithoutBracket "false" := ⟨'e', ['s', 'l', 'a', 'f'], rfl, by decide⟩
      exact (hword.append _).endsLikeDate_eq
  | number n =>
    rw [String.append_assoc]
    exact ((isNumeral_number n).endsWithoutBracket.append _).endsLikeDate_eq
  | string s =>
    rw [operandText_string]
    split
    · simp [endsLikeDate, string, Json.quote, List.isPrefixOf]
    · exact ((endsWithoutBracket_string _).append _).endsLikeDate_eq

theorem endsLikeDateTest_typeCheck (type : PropertyType) :
    endsLikeDateTest (property.typeCheck options type) = false :=
  ((endsWithoutBracket_string _).append _).endsLikeDateTest_eq

theorem endsLikeDateTest_similarity {similarity : Similarity}
    (h : text ∈ similarityPredicates property similarity) : endsLikeDateTest text = false := by
  have hbound : ∀ (start : String) (bound : Number),
      endsLikeDateTest (start ++ " " ++ bound.toText) = false := by
    intro start bound
    rw [String.append_assoc]
    exact ((isNumeral_number bound).endsWithoutBracket.append _).endsLikeDateTest_eq
  rw [similarityPredicates] at h
  split at h
  · obtain rfl := List.mem_singleton.mp h
    have hblank : " >= " = " >=" ++ " " := rfl
    rw [hblank, ← String.append_assoc]
    exact hbound _ _
  · obtain ⟨bound, -, rfl⟩ := List.mem_map.mp h
    exact hbound _ _

/-- What ends like a comparison with a date-time is one, and its assertion stands before it. -/
theorem eq_of_endsLikeDateTest {condition : Condition}
    (hmem : text ∈ conditionPredicates options property condition)
    (h : endsLikeDateTest text = true) :
    conditionPredicates options property condition =
      [property.typeCheck options .datetime, text] := by
  cases condition with
  | compare comparator operand =>
    cases operand with
    | date parts =>
      rw [conditionPredicates] at hmem
      rcases List.mem_cons.mp hmem with rfl | hmem
      · rw [endsLikeDateTest_typeCheck] at h
        cases h
      · rw [conditionPredicates, List.mem_singleton.mp hmem]
    | scalar value =>
      obtain rfl := List.mem_singleton.mp hmem
      rw [endsLikeDateTest_any, ← String.append_assoc, ← String.append_assoc,
        endsLikeDate_scalar] at h
      cases h
  | oneOf items =>
    obtain rfl := List.mem_singleton.mp hmem
    rw [endsLikeDateTest_any, scalarList,
      (((endsWithoutBracket_listOf _).append _).append _).endsLikeDate_eq] at h
    cases h
  | noneOf items =>
    obtain rfl := List.mem_singleton.mp hmem
    simp [endsLikeDateTest, scalarList, listOf, List.isPrefixOf] at h
  | text test needle =>
    obtain rfl := List.mem_singleton.mp hmem
    rw [endsLikeDateTest_any, (((endsWithoutBracket_string _).append _).append _).endsLikeDate_eq]
      at h
    cases h
  | present expected =>
    cases expected <;> obtain rfl := List.mem_singleton.mp hmem <;>
      simp [endsLikeDateTest, Property.isPresent, List.isPrefixOf] at h
  | hasType type =>
    obtain rfl := List.mem_singleton.mp hmem
    rw [endsLikeDateTest_typeCheck] at h
    cases h
  | similar similarity =>
    rw [endsLikeDateTest_similarity hmem] at h
    cases h

end

/-! ## 2.  The predicates of an expression -/

/-- What the conditions of an expression bring, one after another. -/
def broughtPredicates (options : Options) (property : Property) : Expression → List String
  | .equals (.date parts) =>
    [property.typeCheck options .datetime, property.any (partsMatch parts)]
  | .equals (.scalar value) =>
    [property.any ("value = " ++ operandText options (.scalar value))]
  | .all conditions => conditions.flatMap (conditionPredicates options property)

/-- The test compares the property with a date-time that is made of its parts. -/
inductive ComparesDate (property : Property) : Expression → String → Prop
  | equals (parts : DateParts) :
      ComparesDate property (.equals (.date parts)) (property.any (partsMatch parts))
  | compare {conditions : List Condition} {comparator : Comparator} {parts : DateParts}
      (h : .compare comparator (.date parts) ∈ conditions) :
      ComparesDate property (.all conditions)
        (property.any ("value " ++ comparator.symbol ++ " " ++ dateLiteral parts))

section

variable {options : Options} {property : Property}

theorem expressionPredicates_eq (options : Options) (property : Property)
    (expression : Expression) : expressionPredicates options property expression =
      (broughtPredicates options property expression).eraseDups := by
  match expression with
  | .equals (.date _) => rfl
  | .equals (.scalar _) => rfl
  | .all _ => rfl

/-- An assertion ends in a quotation mark, and no test of the elements does. -/
theorem typeCheck_ne_any (type : PropertyType) (test : String) :
    property.typeCheck options type ≠ property.any test := by
  intro heq
  have hlast := congrArg (fun text => text.toList.reverse.head?) heq
  simp [Property.typeCheck, Property.any, string, Json.quote] at hlast

/-- Along the conditions, the assertion comes before every text that ends like a comparison. -/
theorem idxOf_typeCheck_lt {conditions : List Condition} {text : String}
    (hmem : text ∈ conditions.flatMap (conditionPredicates options property))
    (h : endsLikeDateTest text = true) :
    (conditions.flatMap (conditionPredicates options property)).idxOf
        (property.typeCheck options .datetime) <
      (conditions.flatMap (conditionPredicates options property)).idxOf text := by
  induction conditions with
  | nil => cases hmem
  | cons condition conditions ih =>
    rw [List.flatMap_cons] at hmem ⊢
    by_cases hhere : text ∈ conditionPredicates options property condition
    · have hne : property.typeCheck options .datetime ≠ text := by
        rintro rfl
        rw [endsLikeDateTest_typeCheck] at h
        cases h
      rw [eq_of_endsLikeDateTest hhere h, List.cons_append, List.idxOf_cons_self,
        List.idxOf_cons_ne _ hne]
      exact Nat.succ_pos _
    · have hlater := (List.mem_append.mp hmem).resolve_left hhere
      rw [List.idxOf_append_of_notMem hhere]
      by_cases hcheck : property.typeCheck options .datetime ∈
          conditionPredicates options property condition
      · rw [List.idxOf_append_of_mem hcheck]
        exact Nat.lt_add_right _ (List.idxOf_lt_length_iff.mpr hcheck)
      · rw [List.idxOf_append_of_notMem hcheck]
        exact Nat.add_lt_add_left (ih hlater) _

theorem ComparesDate.idxOf_lt {expression : Expression} {test : String}
    (h : ComparesDate property expression test) :
    test ∈ broughtPredicates options property expression ∧
      (broughtPredicates options property expression).idxOf
          (property.typeCheck options .datetime) <
        (broughtPredicates options property expression).idxOf test := by
  cases h with
  | equals parts =>
    refine ⟨List.mem_cons_of_mem _ List.mem_cons_self, ?_⟩
    rw [broughtPredicates, List.idxOf_cons_self, List.idxOf_cons_ne _ (typeCheck_ne_any _ _)]
    exact Nat.succ_pos _
  | compare hcondition =>
    have hmem : property.any _ ∈ List.flatMap (conditionPredicates options property) _ :=
      List.mem_flatMap_of_mem hcondition (List.mem_cons_of_mem _ List.mem_cons_self)
    refine ⟨hmem, idxOf_typeCheck_lt hmem ?_⟩
    rw [endsLikeDateTest_any, ← String.append_assoc]
    exact endsLikeDate_dateLiteral _ _

/-- **No predicate twice, and no date-time before its type.**  The predicates of an expression are
what its conditions bring, each text where it occurs first, and whatever compares the property with
a date-time that is made of its parts stands after the assertion that it is a date-time. -/
theorem expressionPredicates_keepsFirst (options : Options) (property : Property)
    (expression : Expression) :
    KeepsFirst (broughtPredicates options property expression)
        (expressionPredicates options property expression) ∧
      ∀ test, ComparesDate property expression test →
        [property.typeCheck options .datetime, test].Sublist
          (expressionPredicates options property expression) := by
  rw [expressionPredicates_eq]
  have hkept := keepsFirst_eraseDups (broughtPredicates options property expression)
  refine ⟨hkept, fun test htest => ?_⟩
  obtain ⟨hmem, hlt⟩ := htest.idxOf_lt
  exact hkept.sublist hmem hlt

/-- Between two dates, and declared to be a date-time besides. -/
def bornBetween : Expression :=
  .all [.compare .gte (.date [(.year, 1990)]), .hasType .datetime,
    .compare .lt (.date [(.year, 2000), (.month, 6)])]

theorem expressionPredicates_keepsFirst_bornBetween :
    readExpression "born" (.object [
      ("$gte", .object [("$year", .number (.int 1990))]), ("$type", .string "datetime"),
      ("$lt", .object [("$month", .number (.int 6)), ("$year", .number (.int 2000))])]) =
        .ok bornBetween ∧
    (broughtPredicates {} ⟨"record", "born"⟩ bornBetween).length = 5 ∧
    expressionPredicates {} ⟨"record", "born"⟩ bornBetween =
      ["apoc.convert.fromJsonMap(record.__proptypes).born = \"datetime\"",
        "any(value IN record.born WHERE value >= datetime(\x7byear: 1990\x7d))",
        "any(value IN record.born WHERE value < datetime(\x7byear: 2000, month: 6\x7d))"] ∧
    ["apoc.convert.fromJsonMap(record.__proptypes).born = \"datetime\"",
        "any(value IN record.born WHERE value < datetime(\x7byear: 2000, month: 6\x7d))"].Sublist
      (expressionPredicates {} ⟨"record", "born"⟩ bornBetween) := by
  have hlast : ComparesDate ⟨"record", "born"⟩ bornBetween
      "any(value IN record.born WHERE value < datetime(\x7byear: 2000, month: 6\x7d))" :=
    .compare (.tail _ (.tail _ (.head _)))
  exact ⟨rfl, rfl, rfl, (expressionPredicates_keepsFirst {} _ bornBetween).2 _ hlast⟩

end
end GraphSearch.Cypher
