import GraphSearch.Criteria.Expression
import GraphSearch.Proofs.Results
/-!
# The grammar of property values

Which values a property key may have, said without the readers.

## 1.  How an expression is written

Every operand, condition and expression is written in one way, up to the order of the fields of a
date-time or a similarity: `Operand.WrittenAs`, `Threshold.WrittenAs`, `Similarity.WrittenAs`,
`Condition.WrittenAs` and `Expression.WrittenAs` relate it to the values it is written as.  Under
an object of conditions the entries are related to the conditions one to one and in order.

## 2.  What is read

Each reader returns just the thing its value is written for (`readOperand_eq_ok_iff`,
`readSimilarity_eq_ok_iff`, `readCondition_eq_ok_iff`, `readExpression_eq_ok_iff`).  The lists
inside a value are handled alike: what an item is read to is the only thing that is written as
that item, so what a list is read to is written as that list (`mapM_eq_ok_iff_eq_map`).

## 3.  Which values are read

`IsExpression` is the grammar with the results left out.  A value belongs to it when some
expression is written as it (`exists_expression_iff`).
-/

namespace GraphSearch.Criteria

open Results

/-! ## 1.  Keys -/

/-- The key that names a comparator. -/
def Comparator.key : Comparator → String
  | .gt => "$gt"
  | .gte => "$gte"
  | .lt => "$lt"
  | .lte => "$lte"
  | .ne => "$ne"

/-- The key that names a text test. -/
def TextTest.key : TextTest → String
  | .contains => "$contains"
  | .startsWith => "$startsWith"
  | .endsWith => "$endsWith"

/-- The key that names a component of a date-time. -/
def Component.key : Component → String
  | .year => "$year"
  | .month => "$month"
  | .day => "$day"
  | .hour => "$hour"
  | .minute => "$minute"
  | .second => "$second"
  | .millisecond => "$millisecond"
  | .microsecond => "$microsecond"
  | .nanosecond => "$nanosecond"

theorem Comparator.ofKey?_eq_some_iff {key : String} {comparator : Comparator} :
    ofKey? key = some comparator ↔ key = comparator.key := by
  constructor
  · intro h
    simp only [ofKey?] at h
    split at h <;> cases h <;> rfl
  · rintro rfl
    cases comparator <;> rfl

theorem TextTest.ofKey?_eq_some_iff {key : String} {test : TextTest} :
    ofKey? key = some test ↔ key = test.key := by
  constructor
  · intro h
    simp only [ofKey?] at h
    split at h <;> cases h <;> rfl
  · rintro rfl
    cases test <;> rfl

theorem Component.ofKey?_eq_some_iff {key : String} {component : Component} :
    ofKey? key = some component ↔ key = component.key := by
  constructor
  · intro h
    simp only [ofKey?] at h
    split at h <;> cases h <;> rfl
  · rintro rfl
    cases component <;> rfl

theorem PropertyType.ofName?_eq_some_iff {name : String} {type : PropertyType} :
    ofName? name = some type ↔ name = type.name := by
  constructor
  · intro h
    simp only [ofName?] at h
    split at h <;> cases h <;> rfl
  · rintro rfl
    cases type <;> rfl

/-- No comparator is named like a text test. -/
theorem TextTest.comparator_ofKey?_key (test : TextTest) : Comparator.ofKey? test.key = none := by
  cases test <;> rfl

theorem mentionsComponent_iff {fields : List (String × Json)} :
    mentionsComponent fields = true ↔
      ∃ field ∈ fields, ∃ component : Component, field.1 = component.key := by
  simp only [mentionsComponent, List.any_eq_true, Option.isSome_iff_exists,
    Component.ofKey?_eq_some_iff]

/-- The object is no date-time: none of its keys is a component of one. -/
def NamesNoComponent (fields : List (String × Json)) : Prop :=
  ∀ field ∈ fields, ∀ component : Component, field.1 ≠ component.key

theorem namesNoComponent_iff {fields : List (String × Json)} :
    NamesNoComponent fields ↔ ¬ mentionsComponent fields = true := by
  rw [mentionsComponent_iff]
  push Not
  rfl

/-! ## 2.  How an expression is written -/

/-- The entry a part of a date-time is written as. -/
def writtenPart (part : Component × Int) : String × Json :=
  (part.1.key, .number (.int part.2))

/-- The entry a bound of a range is written as. -/
def writtenBound (bound : Comparator × Number) : String × Json :=
  (bound.1.key, .number bound.2)

/-- What is compared with is a scalar, or a date-time whose parts, a year among them, are
written in some order. -/
inductive Operand.WrittenAs : Operand → Json → Prop
  | scalar (value : Scalar) : (Operand.scalar value).WrittenAs value.toJson
  | date {parts : DateParts} (hyear : ∃ part ∈ parts, part.1 = .year) :
      (Operand.date (arrange parts)).WrittenAs (.object (parts.map writtenPart))

/-- A least similarity is a number, a range the object of its bounds. -/
inductive Threshold.WrittenAs : Threshold → Json → Prop
  | atLeast (bound : Number) : (Threshold.atLeast bound).WrittenAs (.number bound)
  | range {bounds : List (Comparator × Number)} (hne : bounds ≠ []) :
      (Threshold.range bounds).WrittenAs (.object (bounds.map writtenBound))

/-- A similarity has its function, its query vector and its threshold in three fields; others
may stand beside them. -/
structure Similarity.WrittenAs (similarity : Similarity) (fields : List (String × Json)) :
    Prop where
  function : ∃ name, Table.find? "fn" fields = some (.string name) ∧
    similarity.function = similarityFunction name
  query : similarity.query ≠ [] ∧
    Table.find? "query" fields = some (.array (similarity.query.map Json.number))
  threshold : ∃ value, Table.find? "threshold" fields = some value ∧
    similarity.threshold.WrittenAs value

/-- A condition is an entry of an object: its key is the operator, its value the operand. -/
inductive Condition.WrittenAs : Condition → String × Json → Prop
  | compare (comparator : Comparator) {operand : Operand} {value : Json}
      (h : operand.WrittenAs value) :
      (Condition.compare comparator operand).WrittenAs (comparator.key, value)
  | oneOf (items : List Scalar) :
      (Condition.oneOf items).WrittenAs ("$in", .array (items.map Scalar.toJson))
  | noneOf (items : List Scalar) :
      (Condition.noneOf items).WrittenAs ("$nin", .array (items.map Scalar.toJson))
  | text (test : TextTest) (needle : String) :
      (Condition.text test needle).WrittenAs (test.key, .string needle)
  | present (expected : Bool) :
      (Condition.present expected).WrittenAs ("$exists", .bool expected)
  | hasType (type : PropertyType) :
      (Condition.hasType type).WrittenAs ("$type", .string type.name)
  | similar {similarity : Similarity} {fields : List (String × Json)}
      (h : similarity.WrittenAs fields) :
      (Condition.similar similarity).WrittenAs ("$vector", .object fields)

/-- What a property is asked for is an operand it equals, or an object of conditions, one to
each entry and in the order of the entries. -/
inductive Expression.WrittenAs : Expression → Json → Prop
  | equals {operand : Operand} {value : Json} (h : operand.WrittenAs value) :
      (Expression.equals operand).WrittenAs value
  | all {conditions : List Condition} {fields : List (String × Json)}
      (hkeys : NamesNoComponent fields)
      (h : List.Forall₂ (fun field condition => condition.WrittenAs field) fields conditions) :
      (Expression.all conditions).WrittenAs (.object fields)

/-! ## 3.  What is read -/

section

variable {key operator : String} {fields : List (String × Json)} {field : String × Json}
  {value : Json}

theorem readPart_eq_ok_iff {whole : Json} {part : Component × Int} :
    readPart key whole field = .ok part ↔ field = writtenPart part := by
  obtain ⟨name, amount⟩ := field
  constructor
  · intro h
    rw [readPart] at h
    split at h
    · cases h
    · next component amount' hcomponent hamount =>
      cases h
      dsimp only at hcomponent hamount
      rw [Component.ofKey?_eq_some_iff.mp hcomponent, hamount]
      rfl
    · cases h
  · intro h
    cases h
    have hcomponent : Component.ofKey? part.1.key = some part.1 :=
      Component.ofKey?_eq_some_iff.mpr rfl
    simp only [readPart, hcomponent]

/-- The year is looked for among the parts, so it does not matter where it stands. -/
theorem readDate_eq_ok_iff {result : DateParts} :
    readDate key fields = .ok result ↔
      ∃ parts : DateParts, fields = parts.map writtenPart ∧ (∃ part ∈ parts, part.1 = .year) ∧
        result = arrange parts := by
  have hparts : ∀ parts : DateParts, fields.mapM (readPart key (.object fields)) = .ok parts ↔
      fields = parts.map writtenPart :=
    fun parts => mapM_eq_ok_iff_eq_map fun _ _ => readPart_eq_ok_iff
  have hyear : ∀ parts : DateParts, (parts.any fun part => part.1 = .year) = true ↔
      ∃ part ∈ parts, part.1 = .year := by
    intro parts
    simp only [List.any_eq_true, decide_eq_true_eq]
  rw [readDate, bind_eq_ok]
  refine exists_congr fun parts => and_congr (hparts parts) ?_
  by_cases h : (parts.any fun part => part.1 = .year) = true
  · rw [if_pos h, pure_eq_ok]
    exact ⟨fun hresult => ⟨(hyear parts).mp h, hresult.symm⟩, fun hresult => hresult.2.symm⟩
  · rw [if_neg h]
    constructor
    · intro hresult
      cases hresult
    · rintro ⟨hmem, -⟩
      exact absurd ((hyear parts).mpr hmem) h

/-- An object with a year mentions a component, so it is read as a date-time. -/
theorem mentionsComponent_map_writtenPart {parts : DateParts}
    (hyear : ∃ part ∈ parts, part.1 = .year) :
    mentionsComponent (parts.map writtenPart) = true := by
  obtain ⟨part, hmem, -⟩ := hyear
  exact mentionsComponent_iff.mpr
    ⟨writtenPart part, List.mem_map_of_mem hmem, part.1, rfl⟩

theorem readOperand_eq_ok_iff {operand : Operand} :
    readOperand key operator value = .ok operand ↔ operand.WrittenAs value := by
  constructor
  · intro h
    cases value with
    | null =>
      cases h
      exact .scalar .null
    | bool b =>
      cases h
      exact .scalar (.bool b)
    | number n =>
      cases h
      exact .scalar (.number n)
    | string s =>
      cases h
      exact .scalar (.string s)
    | array items => cases h
    | object fields =>
      rw [readOperand] at h
      split at h
      · obtain ⟨result, hdate, rfl⟩ := map_eq_ok.mp h
        obtain ⟨parts, rfl, hyear, rfl⟩ := readDate_eq_ok_iff.mp hdate
        exact .date hyear
      · cases h
  · intro h
    cases h with
    | scalar value => cases value <;> rfl
    | date hyear =>
      rw [readOperand, if_pos (mentionsComponent_map_writtenPart hyear)]
      exact map_eq_ok.mpr ⟨_, readDate_eq_ok_iff.mpr ⟨_, rfl, hyear, rfl⟩, rfl⟩

theorem ofJson?_eq_some_iff {scalar : Scalar} :
    Scalar.ofJson? value = some scalar ↔ value = scalar.toJson := by
  constructor
  · intro h
    exact (Scalar.toJson_of_ofJson? h).symm
  · rintro rfl
    exact Scalar.ofJson?_toJson scalar

theorem number?_eq_some_iff {number : Number} :
    value.number? = some number ↔ value = .number number := by
  cases value <;> simp [Json.number?]

theorem readScalars_eq_ok_iff {scalars : List Scalar} :
    readScalars key operator value = .ok scalars ↔
      value = .array (scalars.map Scalar.toJson) := by
  cases value with
  | array items =>
    have hitems : items.mapM Scalar.ofJson? = some scalars ↔ items = scalars.map Scalar.toJson :=
      mapM_eq_some_iff_eq_map fun _ _ => ofJson?_eq_some_iff
    rw [Json.array.injEq, ← hitems, readScalars]
    cases items.mapM Scalar.ofJson? with
    | some found => simp
    | none => simp
  | _ => simp [readScalars]

theorem readBound_eq_ok_iff {bound : Comparator × Number} :
    readBound key field = .ok bound ↔ field = writtenBound bound := by
  obtain ⟨name, value⟩ := field
  constructor
  · intro h
    rw [readBound] at h
    split at h
    · cases h
    · next comparator number hcomparator hnumber =>
      cases h
      dsimp only at hcomparator hnumber
      rw [Comparator.ofKey?_eq_some_iff.mp hcomparator, hnumber]
      rfl
    · cases h
  · intro h
    cases h
    have hcomparator : Comparator.ofKey? bound.1.key = some bound.1 :=
      Comparator.ofKey?_eq_some_iff.mpr rfl
    simp only [readBound, hcomparator]

theorem mapM_number?_eq_some_iff {items : List Json} {numbers : List Number} :
    items.mapM Json.number? = some numbers ↔ items = numbers.map Json.number :=
  mapM_eq_some_iff_eq_map fun _ _ => number?_eq_some_iff

theorem mapM_readBound_eq_ok_iff {bounds : List (Comparator × Number)} :
    fields.mapM (readBound key) = .ok bounds ↔ fields = bounds.map writtenBound :=
  mapM_eq_ok_iff_eq_map fun _ _ => readBound_eq_ok_iff

/-- A similarity that was read is written in the fields of its value. -/
theorem writtenAs_of_readSimilarity {similarity : Similarity}
    (h : readSimilarity key value = .ok similarity) :
    ∃ fields, value = .object fields ∧ similarity.WrittenAs fields := by
  simp only [readSimilarity] at h
  split at h
  case h_2 => cases h
  rename_i fields
  split at h
  case h_2 => cases h
  rename_i name hfunction
  split at h
  case h_2 => cases h
  rename_i first others hitems
  split at h
  case h_2 => cases h
  rename_i query hquery
  -- the items that were read as numbers are those numbers, and there is a first of them
  have hwritten : first :: others = query.map Json.number := mapM_number?_eq_some_iff.mp hquery
  have hne : query ≠ [] := by
    rintro rfl
    cases hwritten
  rw [hwritten] at hitems
  split at h
  · next bound hthreshold =>
    cases h
    exact ⟨fields, rfl, ⟨name, hfunction, rfl⟩, ⟨hne, hitems⟩, ⟨_, hthreshold, .atLeast bound⟩⟩
  · next bound bounds hthreshold =>
    obtain ⟨threshold, hrange, h⟩ := bind_eq_ok.mp h
    obtain ⟨range, hread, rfl⟩ := map_eq_ok.mp hrange
    cases h
    have hbounds : bound :: bounds = range.map writtenBound := mapM_readBound_eq_ok_iff.mp hread
    have hrangene : range ≠ [] := by
      rintro rfl
      cases hbounds
    rw [hbounds] at hthreshold
    exact ⟨fields, rfl, ⟨name, hfunction, rfl⟩, ⟨hne, hitems⟩, ⟨_, hthreshold, .range hrangene⟩⟩
  · cases h

theorem readSimilarity_of_writtenAs {similarity : Similarity} (h : similarity.WrittenAs fields) :
    readSimilarity key (.object fields) = .ok similarity := by
  obtain ⟨function, query, threshold⟩ := similarity
  obtain ⟨⟨name, hname, hfunction⟩, ⟨hne, hitems⟩, ⟨written, hwritten, hthreshold⟩⟩ := h
  dsimp only at hfunction hne hitems hthreshold
  subst hfunction
  cases query with
  | nil => exact absurd rfl hne
  | cons first others =>
    have hquery : (Json.number first :: others.map Json.number).mapM Json.number? =
        some (first :: others) := mapM_number?_eq_some_iff.mpr rfl
    rw [List.map_cons] at hitems
    cases hthreshold with
    | atLeast bound =>
      simp only [readSimilarity, hname, hitems, hquery, hwritten]
      rfl
    | @range bounds hne =>
      cases bounds with
      | nil => exact absurd rfl hne
      | cons bound bounds =>
        have hbounds : (writtenBound bound :: bounds.map writtenBound).mapM (readBound key) =
            .ok (bound :: bounds) := mapM_readBound_eq_ok_iff.mpr rfl
        rw [List.map_cons] at hwritten
        simp only [readSimilarity, hname, hitems, hquery, hwritten, hbounds]
        rfl

theorem readSimilarity_eq_ok_iff {similarity : Similarity} :
    readSimilarity key value = .ok similarity ↔
      ∃ fields, value = .object fields ∧ similarity.WrittenAs fields := by
  constructor
  · exact writtenAs_of_readSimilarity
  · rintro ⟨fields, rfl, h⟩
    exact readSimilarity_of_writtenAs h

theorem readCondition_eq_ok_iff {condition : Condition} :
    readCondition key field = .ok condition ↔ condition.WrittenAs field := by
  obtain ⟨operator, operand⟩ := field
  constructor
  · intro h
    simp only [readCondition] at h
    split at h
    · next comparator hcomparator =>
      obtain ⟨value, hvalue, rfl⟩ := map_eq_ok.mp h
      rw [Comparator.ofKey?_eq_some_iff.mp hcomparator]
      exact .compare comparator (readOperand_eq_ok_iff.mp hvalue)
    · split at h
      · next test htest =>
        rw [TextTest.ofKey?_eq_some_iff.mp htest]
        cases operand with
        | string needle =>
          cases h
          exact .text test needle
        | _ => cases h
      · split at h
        · obtain ⟨items, hitems, rfl⟩ := map_eq_ok.mp h
          rw [readScalars_eq_ok_iff.mp hitems]
          exact .oneOf items
        · obtain ⟨items, hitems, rfl⟩ := map_eq_ok.mp h
          rw [readScalars_eq_ok_iff.mp hitems]
          exact .noneOf items
        · cases operand with
          | bool expected =>
            cases h
            exact .present expected
          | _ => cases h
        · cases operand with
          | string name =>
            split at h
            · next type hname =>
              cases h
              rw [PropertyType.ofName?_eq_some_iff.mp hname]
              exact .hasType type
            · cases h
          | _ => cases h
        · obtain ⟨similarity, hsimilarity, rfl⟩ := map_eq_ok.mp h
          obtain ⟨fields, rfl, hwritten⟩ := readSimilarity_eq_ok_iff.mp hsimilarity
          exact .similar hwritten
        · cases h
  · intro h
    cases h with
    | compare comparator hoperand =>
      simp only [readCondition, Comparator.ofKey?_eq_some_iff.mpr rfl]
      exact map_eq_ok.mpr ⟨_, readOperand_eq_ok_iff.mpr hoperand, rfl⟩
    | oneOf items => exact map_eq_ok.mpr ⟨items, readScalars_eq_ok_iff.mpr rfl, rfl⟩
    | noneOf items => exact map_eq_ok.mpr ⟨items, readScalars_eq_ok_iff.mpr rfl, rfl⟩
    | text test needle =>
      simp only [readCondition, test.comparator_ofKey?_key, TextTest.ofKey?_eq_some_iff.mpr rfl]
    | present expected => rfl
    | hasType type => cases type <;> rfl
    | similar hsimilarity =>
      exact map_eq_ok.mpr ⟨_, readSimilarity_of_writtenAs hsimilarity, rfl⟩

theorem mapM_readCondition_eq_ok_iff {conditions : List Condition} :
    fields.mapM (readCondition key) = .ok conditions ↔
      List.Forall₂ (fun field condition => condition.WrittenAs field) fields conditions := by
  simp only [mapM_eq_ok, readCondition_eq_ok_iff]

theorem readExpression_equals_iff {operand : Operand} :
    readExpression key value = .ok (.equals operand) ↔ operand.WrittenAs value := by
  -- operands are read as under an operator, whose name matters to rejections only
  have hoperand : readOperand key key value = .ok operand ↔ operand.WrittenAs value :=
    readOperand_eq_ok_iff
  rw [← hoperand]
  cases value with
  | null | bool _ | number _ | string _ | array _ => simp [readExpression, readOperand]
  | object fields =>
    rw [readExpression, readOperand]
    by_cases hmentions : mentionsComponent fields = true
    · rw [if_pos hmentions, if_pos hmentions]
      cases readDate key fields <;> simp [Except.map]
    · rw [if_neg hmentions, if_neg hmentions]
      cases fields.mapM (readCondition key) <;> simp [Except.map]

/-- Conditions are read from the objects that are no date-time and have them as entries. -/
theorem readExpression_all_iff {conditions : List Condition} :
    readExpression key value = .ok (.all conditions) ↔
      ∃ fields, value = .object fields ∧ NamesNoComponent fields ∧
        List.Forall₂ (fun field condition => condition.WrittenAs field) fields conditions := by
  constructor
  · intro h
    cases value with
    | null | bool _ | number _ | string _ | array _ => cases h
    | object fields =>
      rw [readExpression] at h
      split at h
      · obtain ⟨_, -, hdate⟩ := map_eq_ok.mp h
        cases hdate
      · next hmentions =>
        obtain ⟨_, hconditions, heq⟩ := map_eq_ok.mp h
        cases heq
        exact ⟨fields, rfl, namesNoComponent_iff.mpr hmentions,
          mapM_readCondition_eq_ok_iff.mp hconditions⟩
  · rintro ⟨fields, rfl, hkeys, hconditions⟩
    rw [readExpression, if_neg (namesNoComponent_iff.mp hkeys)]
    exact map_eq_ok.mpr ⟨conditions, mapM_readCondition_eq_ok_iff.mpr hconditions, rfl⟩

/-- An expression is read from exactly the values it is written as. -/
theorem readExpression_eq_ok_iff {expression : Expression} :
    readExpression key value = .ok expression ↔ expression.WrittenAs value := by
  cases expression with
  | equals operand =>
    rw [readExpression_equals_iff]
    constructor
    · exact .equals
    · rintro ⟨h⟩
      exact h
  | all conditions =>
    rw [readExpression_all_iff]
    constructor
    · rintro ⟨fields, rfl, hkeys, h⟩
      exact .all hkeys h
    · rintro (_ | ⟨hkeys, h⟩)
      exact ⟨_, rfl, hkeys, h⟩

/-! ## 4.  Which values are read -/

/-- A value that is neither an array nor an object. -/
def IsScalar : Json → Prop
  | .null | .bool _ | .number _ | .string _ => True
  | .array _ | .object _ => False

/-- A date-time: amounts of components, a year among them.  An amount is a number that was
written as an integer and fits 64 bits; `2024.0` is none. -/
structure IsDate (fields : List (String × Json)) : Prop where
  parts : ∀ field ∈ fields, ∃ component : Component, ∃ amount : Int,
    field = (component.key, .number (.int amount))
  year : ∃ field ∈ fields, field.1 = "$year"

/-- What a property can be compared with. -/
inductive IsOperand : Json → Prop
  | scalar {value : Json} (h : IsScalar value) : IsOperand value
  | date {fields : List (String × Json)} (h : IsDate fields) : IsOperand (.object fields)

/-- A number, or an object of bounds that is not empty. -/
inductive IsThreshold : Json → Prop
  | atLeast (bound : Number) : IsThreshold (.number bound)
  | range {bounds : List (String × Json)} (hne : bounds ≠ [])
      (h : ∀ field ∈ bounds, ∃ comparator : Comparator, ∃ bound : Number,
        field = (comparator.key, .number bound)) :
      IsThreshold (.object bounds)

/-- A similarity: the name of a function, numbers to compare with, and a threshold. -/
structure IsSimilarity (fields : List (String × Json)) : Prop where
  function : ∃ name, Table.find? "fn" fields = some (.string name)
  query : ∃ items, Table.find? "query" fields = some (.array items) ∧ items ≠ [] ∧
    ∀ item ∈ items, ∃ number, item = .number number
  threshold : ∃ value, Table.find? "threshold" fields = some value ∧ IsThreshold value

/-- An operator with an operand it can have. -/
inductive IsCondition : String × Json → Prop
  | compare (comparator : Comparator) {value : Json} (h : IsOperand value) :
      IsCondition (comparator.key, value)
  | oneOf {items : List Json} (h : ∀ item ∈ items, IsScalar item) :
      IsCondition ("$in", .array items)
  | noneOf {items : List Json} (h : ∀ item ∈ items, IsScalar item) :
      IsCondition ("$nin", .array items)
  | text (test : TextTest) (needle : String) : IsCondition (test.key, .string needle)
  | present (expected : Bool) : IsCondition ("$exists", .bool expected)
  | hasType (type : PropertyType) : IsCondition ("$type", .string type.name)
  | similar {fields : List (String × Json)} (h : IsSimilarity fields) :
      IsCondition ("$vector", .object fields)

/-- The grammar of the values of a property key. -/
inductive IsExpression : Json → Prop
  | equals {value : Json} (h : IsOperand value) : IsExpression value
  | all {fields : List (String × Json)} (hkeys : NamesNoComponent fields)
      (h : ∀ field ∈ fields, IsCondition field) : IsExpression (.object fields)

theorem exists_scalar_iff : (∃ scalar : Scalar, value = scalar.toJson) ↔ IsScalar value := by
  constructor
  · rintro ⟨scalar, rfl⟩
    cases scalar <;> trivial
  · intro h
    cases value with
    | null => exact ⟨.null, rfl⟩
    | bool b => exact ⟨.bool b, rfl⟩
    | number n => exact ⟨.number n, rfl⟩
    | string s => exact ⟨.string s, rfl⟩
    | array items => exact h.elim
    | object fields => exact h.elim

theorem exists_scalars_iff {items : List Json} :
    (∃ scalars : List Scalar, items = scalars.map Scalar.toJson) ↔
      ∀ item ∈ items, IsScalar item := by
  simp only [exists_eq_map_iff, exists_scalar_iff]

theorem exists_parts_iff :
    (∃ parts : DateParts, fields = parts.map writtenPart) ↔
      ∀ field ∈ fields, ∃ component : Component, ∃ amount : Int,
        field = (component.key, .number (.int amount)) := by
  rw [exists_eq_map_iff]
  simp only [Prod.exists, writtenPart]

theorem exists_bounds_iff :
    (∃ bounds : List (Comparator × Number), fields = bounds.map writtenBound) ↔
      ∀ field ∈ fields, ∃ comparator : Comparator, ∃ bound : Number,
        field = (comparator.key, .number bound) := by
  rw [exists_eq_map_iff]
  simp only [Prod.exists, writtenBound]

theorem exists_date_iff :
    (∃ parts : DateParts, fields = parts.map writtenPart ∧ ∃ part ∈ parts, part.1 = .year) ↔
      IsDate fields := by
  constructor
  · rintro ⟨parts, rfl, part, hpart, hyear⟩
    refine ⟨exists_parts_iff.mp ⟨parts, rfl⟩, writtenPart part, List.mem_map_of_mem hpart, ?_⟩
    rw [writtenPart, hyear]
    rfl
  · rintro ⟨hparts, field, hfield, hyear⟩
    obtain ⟨parts, rfl⟩ := exists_parts_iff.mpr hparts
    obtain ⟨part, hpart, rfl⟩ := List.mem_map.mp hfield
    have hcomponent : Component.ofKey? "$year" = some part.1 :=
      Component.ofKey?_eq_some_iff.mpr hyear.symm
    exact ⟨parts, rfl, part, hpart, (Option.some.inj hcomponent).symm⟩

theorem exists_operand_iff : (∃ operand : Operand, operand.WrittenAs value) ↔ IsOperand value := by
  constructor
  · rintro ⟨operand, h⟩
    cases h with
    | scalar scalar => exact .scalar (exists_scalar_iff.mp ⟨scalar, rfl⟩)
    | date hyear => exact .date (exists_date_iff.mp ⟨_, rfl, hyear⟩)
  · intro h
    cases h with
    | scalar h =>
      obtain ⟨scalar, rfl⟩ := exists_scalar_iff.mpr h
      exact ⟨_, .scalar scalar⟩
    | date h =>
      obtain ⟨parts, rfl, hyear⟩ := exists_date_iff.mpr h
      exact ⟨_, .date hyear⟩

theorem exists_threshold_iff :
    (∃ threshold : Threshold, threshold.WrittenAs value) ↔ IsThreshold value := by
  constructor
  · rintro ⟨threshold, h⟩
    cases h with
    | atLeast bound => exact .atLeast bound
    | @range bounds hne => exact .range (by simpa using hne) (exists_bounds_iff.mp ⟨bounds, rfl⟩)
  · intro h
    cases h with
    | atLeast bound => exact ⟨_, .atLeast bound⟩
    | range hne h =>
      obtain ⟨bounds, rfl⟩ := exists_bounds_iff.mpr h
      exact ⟨_, .range (by simpa using hne)⟩

theorem exists_similarity_iff :
    (∃ similarity : Similarity, similarity.WrittenAs fields) ↔ IsSimilarity fields := by
  constructor
  · rintro ⟨similarity, ⟨name, hname, -⟩, ⟨hne, hquery⟩, ⟨value, hvalue, hthreshold⟩⟩
    refine ⟨⟨name, hname⟩, ⟨_, hquery, by simpa using hne, ?_⟩,
      ⟨value, hvalue, exists_threshold_iff.mp ⟨_, hthreshold⟩⟩⟩
    exact exists_eq_map_iff.mp ⟨similarity.query, rfl⟩
  · rintro ⟨⟨name, hname⟩, ⟨items, hquery, hne, hitems⟩, ⟨value, hvalue, hthreshold⟩⟩
    obtain ⟨query, rfl⟩ := exists_eq_map_iff.mpr hitems
    obtain ⟨threshold, hthreshold⟩ := exists_threshold_iff.mpr hthreshold
    exact ⟨⟨similarityFunction name, query, threshold⟩, ⟨name, hname, rfl⟩,
      ⟨by simpa using hne, hquery⟩, ⟨value, hvalue, hthreshold⟩⟩

theorem exists_condition_iff :
    (∃ condition : Condition, condition.WrittenAs field) ↔ IsCondition field := by
  constructor
  · rintro ⟨condition, h⟩
    cases h with
    | compare comparator h => exact .compare comparator (exists_operand_iff.mp ⟨_, h⟩)
    | oneOf items => exact .oneOf (exists_scalars_iff.mp ⟨items, rfl⟩)
    | noneOf items => exact .noneOf (exists_scalars_iff.mp ⟨items, rfl⟩)
    | text test needle => exact .text test needle
    | present expected => exact .present expected
    | hasType type => exact .hasType type
    | similar h => exact .similar (exists_similarity_iff.mp ⟨_, h⟩)
  · intro h
    cases h with
    | compare comparator h =>
      obtain ⟨operand, h⟩ := exists_operand_iff.mpr h
      exact ⟨_, .compare comparator h⟩
    | oneOf h =>
      obtain ⟨items, rfl⟩ := exists_scalars_iff.mpr h
      exact ⟨_, .oneOf items⟩
    | noneOf h =>
      obtain ⟨items, rfl⟩ := exists_scalars_iff.mpr h
      exact ⟨_, .noneOf items⟩
    | text test needle => exact ⟨_, .text test needle⟩
    | present expected => exact ⟨_, .present expected⟩
    | hasType type => exact ⟨_, .hasType type⟩
    | similar h =>
      obtain ⟨similarity, h⟩ := exists_similarity_iff.mpr h
      exact ⟨_, .similar h⟩

theorem exists_expression_iff :
    (∃ expression : Expression, expression.WrittenAs value) ↔ IsExpression value := by
  constructor
  · rintro ⟨expression, h⟩
    cases h with
    | equals h => exact .equals (exists_operand_iff.mp ⟨_, h⟩)
    | all hkeys h =>
      refine .all hkeys fun field hfield => exists_condition_iff.mp ?_
      exact exists_forall₂_iff.mp ⟨_, h⟩ field hfield
  · intro h
    cases h with
    | equals h =>
      obtain ⟨operand, h⟩ := exists_operand_iff.mpr h
      exact ⟨_, .equals h⟩
    | all hkeys h =>
      obtain ⟨conditions, h⟩ := exists_forall₂_iff.mpr fun field hfield =>
        exists_condition_iff.mpr (h field hfield)
      exact ⟨_, .all hkeys h⟩

end

/-- The values of a property key are read exactly when they belong to the grammar, under every
key; and a list of conditions is read from just the objects that name no component of a
date-time and have those conditions as their entries, one to one and in order. -/
theorem readExpression_grammar (key : String) (value : Json) :
    ((∃ expression, readExpression key value = .ok expression) ↔ IsExpression value) ∧
      ∀ conditions, readExpression key value = .ok (.all conditions) ↔
        ∃ fields, value = .object fields ∧ NamesNoComponent fields ∧
          List.Forall₂ (fun field condition => condition.WrittenAs field) fields conditions := by
  constructor
  · simp only [readExpression_eq_ok_iff, exists_expression_iff]
  · intro conditions
    exact readExpression_all_iff

end GraphSearch.Criteria
