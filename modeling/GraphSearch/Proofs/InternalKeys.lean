import GraphSearch.Proofs.Cypher.Name
import GraphSearch.Proofs.Handover
import GraphSearch.Proofs.Matching.Origins
/-!
# How internal keys are spelled

A store names two properties of its own, the one that identifies a record and the one that holds
the types of the others, and a statement names them after a dot in four places.  In an order and in
a test of an identity they are names like any other, between backticks unless they are plain.  In
the projection of the root record and in a test of a type they stand as they were given.

* `Spelling.projection`, `Spelling.clause`, `Spelling.leafPredicates`: what is written, for any way
  to spell the keys;
* `Search.SpellsKeys`: a search has its keys spelled in that way, wherever it names them;
* `Search.ofRequest_spellsKeys`: how a search has them spelled.  They are the same names everywhere
  if both are plain, and where columns are returned, only then.
-/

namespace GraphSearch

open Criteria
open Aggregate (Plan Scope)

/-! ## 1.  Spellings -/

/-- A place where an internal key stands after a dot. -/
inductive KeyUse where
  | projection
  | order
  | identity
  | typeCheck
  deriving DecidableEq, Repr

/-- A way to spell keys, which may depend on the use that is made of them. -/
abbrev Spelling := KeyUse → String → String

namespace Spelling

/-- Every key is a name, whatever it is used for. -/
def uniform : Spelling := fun _ key => Cypher.name key

/-- Keys are names in orders and in tests of an identity, and are not looked at elsewhere. -/
def mixed : Spelling
  | .order, key | .identity, key => Cypher.name key
  | .projection, key | .typeCheck, key => key

/-- The projection of the root record with the names of its columns. -/
def projection (spell : Spelling) (options : Options) (fields : List String) : String :=
  options.rootAlias ++ " \x7b" ++ ", ".intercalate
    (["." ++ spell .projection options.idKey, "." ++ spell .projection options.typesKey,
      Cypher.name options.labelKey ++ ": " ++ options.labelOf options.rootAlias]
      ++ fields.map fun name => name ++ ": " ++ name) ++ "\x7d"

/-- The `ORDER BY` clause of the order by identity. -/
def identityClause (spell : Spelling) (options : Options) (direction : SortDirection) : String :=
  "ORDER BY " ++ (options.rootAlias ++ "." ++ spell .order options.idKey ++ " "
    ++ direction.keyword)

/-- The `ORDER BY` clause of an order.  One by properties names those of the request alone. -/
def clause (spell : Spelling) (options : Options) : Option SortOrder → String
  | none => spell.identityClause options .descending
  | some (.identity direction) => spell.identityClause options direction
  | some (.properties keys) =>
    "ORDER BY " ++ ", ".intercalate (keys.map fun key =>
      options.rootAlias ++ "." ++ Cypher.name key.1 ++ " " ++ key.2.keyword)

end Spelling

/-! ## 2.  Predicates -/

namespace Cypher

/-- What a predicate tests of a property: the type it was declared with, or what it holds. -/
inductive PropertyTest where
  | declared (type : PropertyType)
  | content (text : String)

/-- The predicate of a test, where the types are under the key given. -/
def PropertyTest.text (typesKey : String) (property : Property) : PropertyTest → String
  | .declared type =>
    "apoc.convert.fromJsonMap(" ++ property.node ++ "." ++ typesKey ++ ")" ++ "."
      ++ name property.key ++ " = " ++ string type.name
  | .content text => text

/-- The tests of a condition.  Of the options only the sentinel is used, so no internal key is
named outside of a test of the type. -/
def conditionTests (sentinel : String) (property : Property) : Condition → List PropertyTest
  | .compare comparator (.date parts) =>
    [.declared .datetime,
      .content (property.any ("value " ++ comparator.symbol ++ " " ++ dateLiteral parts))]
  | .hasType type => [.declared type]
  | condition =>
    (conditionPredicates { nullSentinel := sentinel } property condition).map .content

/-- The tests of an expression. -/
def expressionTests (sentinel : String) (property : Property) : Expression → List PropertyTest
  | .equals (.date parts) => [.declared .datetime, .content (property.any (partsMatch parts))]
  | .equals (.scalar value) =>
    [.content (property.any ("value = "
      ++ operandText { nullSentinel := sentinel } (.scalar value)))]
  | .all conditions => conditions.flatMap (conditionTests sentinel property)

/-- The predicates of an identity that is written as given. -/
def identityPredicatesOf (id : String) (value : Json) : Except Rejection (List String) := do
  match ← readExpression idKey value with
  | .equals (.scalar .null) => return [id ++ " IS NULL"]
  | .equals (.scalar scalar) => return [id ++ " = " ++ scalarLiteral scalar]
  | .equals (.date _) => throw (.invalidOperand idKey "$eq" value)
  | .all conditions => conditions.mapM (identityCondition id value)

section

variable (options : Options) (property : Property)

theorem typeCheck_eq (type : PropertyType) :
    property.typeCheck options type =
      PropertyTest.text options.typesKey property (.declared type) := rfl

theorem map_text_content (typesKey : String) (texts : List String) :
    (texts.map PropertyTest.content).map (PropertyTest.text typesKey property) = texts := by
  rw [List.map_map]
  exact List.map_id _

theorem operandText_congr {options other : Options}
    (h : options.nullSentinel = other.nullSentinel) (operand : Operand) :
    operandText options operand = operandText other operand := by
  cases operand with
  | date parts => rfl
  | scalar value => cases value <;> simp only [operandText, h]

theorem conditionPredicates_eq_map (condition : Condition) :
    conditionPredicates options property condition =
      (conditionTests options.nullSentinel property condition).map
        (PropertyTest.text options.typesKey property) := by
  match condition with
  | .compare comparator (.date parts) =>
    rw [conditionPredicates, typeCheck_eq]
    rfl
  | .hasType type =>
    rw [conditionPredicates, typeCheck_eq]
    rfl
  | .compare comparator (.scalar value) =>
    rw [conditionTests, map_text_content, conditionPredicates, conditionPredicates,
      operandText_congr rfl]
    · rfl
    all_goals simp
  | .oneOf _ | .noneOf _ | .text _ _ | .present true | .present false | .similar _ =>
    rw [conditionTests, map_text_content] <;> simp [conditionPredicates]

theorem expressionPredicates_eq_map (expression : Expression) :
    expressionPredicates options property expression =
      ((expressionTests options.nullSentinel property expression).map
        (PropertyTest.text options.typesKey property)).eraseDups := by
  match expression with
  | .equals (.date parts) =>
    rw [expressionPredicates, typeCheck_eq]
    rfl
  | .equals (.scalar value) =>
    rw [expressionPredicates, operandText_congr rfl]
    rfl
  | .all conditions =>
    rw [expressionPredicates, expressionTests, List.map_flatMap]
    have hconditions := funext (conditionPredicates_eq_map options property)
    rw [hconditions]

end

end Cypher

/-- The predicates of an entry that has no criteria inside, on the records of `node`. -/
def Spelling.leafPredicates (spell : Spelling) (options : Options) (node key : String)
    (value : Json) : Except Rejection (List String) :=
  match kindOf key value with
  | .identity =>
    Cypher.identityPredicatesOf (node ++ "." ++ spell .identity options.idKey) value
  | .property => (readExpression key value).map fun expression =>
      ((Cypher.expressionTests options.nullSentinel ⟨node, key⟩ expression).map
        (Cypher.PropertyTest.text (spell .typeCheck options.typesKey) ⟨node, key⟩)).eraseDups
  | .declaration | .relation => .ok []
  | .group op => .error (.invalidOperand op.key op.key value)
  | .related => .error (.invalidOperand key key value)

theorem leafPredicates_eq (options : Options) (node key : String) (value : Json) :
    Matching.leafPredicates options node key value =
      Spelling.mixed.leafPredicates options node key value := by
  rw [Matching.leafPredicates, Spelling.leafPredicates]
  cases kindOf key value with
  | property =>
    simp only [Cypher.propertyPredicates]
    congr 1
    funext expression
    exact Cypher.expressionPredicates_eq_map options ⟨node, key⟩ expression
  | identity | declaration | relation | group op | related => rfl

/-! ## 3.  Plain keys -/

namespace Spelling

variable {options : Options} {fields : List String}

/-- A plain key is its own name, so it does not matter which of the two is written. -/
theorem mixed_eq_uniform {key : String} (h : Cypher.isPlain key = true) (use : KeyUse) :
    mixed use key = uniform use key := by
  rw [uniform, Cypher.name_of_isPlain h]
  cases use with
  | projection | typeCheck => rfl
  | order | identity => exact Cypher.name_of_isPlain h

/-- How long a projection is, by the lengths of the keys. -/
theorem length_projection (options : Options) (fields : List String) :
    ∃ others, ∀ spell : Spelling, (spell.projection options fields).length =
      (spell .projection options.idKey).length + (spell .projection options.typesKey).length
        + others := by
  let entries := fields.map fun name => name ++ ": " ++ name
  let label := Cypher.name options.labelKey ++ ": " ++ options.labelOf options.rootAlias
  refine ⟨(options.rootAlias ++ " \x7b" ++ "." ++ ", " ++ "." ++ ", "
    ++ ", ".intercalate (label :: entries) ++ "\x7d").length, fun spell => ?_⟩
  have hprojection : spell.projection options fields = options.rootAlias ++ " \x7b"
      ++ ("." ++ spell .projection options.idKey ++ ", "
        ++ ("." ++ spell .projection options.typesKey ++ ", "
          ++ ", ".intercalate (label :: entries))) ++ "\x7d" := by
    simp only [projection, List.cons_append, List.nil_append, String.intercalate_cons_cons]
    rfl
  rw [hprojection]
  simp only [String.length_append]
  omega

/-- A projection that names the keys has plain ones if it is as long as it is with the keys
themselves. -/
theorem isPlain_of_projection
    (h : mixed.projection options fields = uniform.projection options fields) :
    Cypher.isPlain options.idKey = true ∧ Cypher.isPlain options.typesKey = true := by
  obtain ⟨others, hlength⟩ := length_projection options fields
  have heq := hlength mixed
  rw [h, hlength uniform] at heq
  simp only [mixed, uniform] at heq
  have hid := Cypher.length_le_length_name options.idKey
  have htypes := Cypher.length_le_length_name options.typesKey
  exact ⟨Cypher.isPlain_of_length_name_le (by omega), Cypher.isPlain_of_length_name_le (by omega)⟩

/-- What is written with two spellings is the same if both spell the internal keys alike. -/
theorem leafPredicates_congr {spell other : Spelling}
    (hid : spell .identity options.idKey = other .identity options.idKey)
    (htypes : spell .typeCheck options.typesKey = other .typeCheck options.typesKey)
    (node key : String) (value : Json) :
    spell.leafPredicates options node key value = other.leafPredicates options node key value := by
  rw [leafPredicates, leafPredicates, hid, htypes]

theorem clause_eq (options : Options) (order : Option SortOrder) :
    SortOrder.clause options order = mixed.clause options order := by
  match order with
  | none | some (.identity _) | some (.properties _) => rfl

end Spelling

/-! ## 4.  Searches -/

namespace Search

/-- The search has its internal keys spelled in this way, wherever a statement names them: in the
projection of its columns, in its order, and in what it asks of records.  (Without columns the
projection names no internal key but that of the label.) -/
structure SpellsKeys (search : Search) (spell : Spelling) (options : Options) (request : Request) :
    Prop where
  projection : ∀ plan, search.plan = some plan →
    plan.recordPart = spell.projection options plan.fields
  order : ∃ order, orderOf request = .ok order ∧
    search.selection.orderClause = spell.clause options order
  /-- What is asked of records is what a leaf of the criteria is read as. -/
  predicates : ∀ node text, search.selection.Asks node text →
    ∃ leaf ∈ Matching.itemLeaves (criteriaOf request), ∃ predicates,
      spell.leafPredicates options node leaf.1 leaf.2 = .ok predicates ∧ text ∈ predicates

variable {options : Options} {request : Request} {search : Search}

theorem SpellsKeys.congr {spell other : Spelling} (h : search.SpellsKeys spell options request)
    (hid : ∀ use, spell use options.idKey = other use options.idKey)
    (htypes : ∀ use, spell use options.typesKey = other use options.typesKey) :
    search.SpellsKeys other options request where
  projection plan hplan := by
    rw [h.projection plan hplan, Spelling.projection, hid, htypes, ← Spelling.projection]
  order := by
    obtain ⟨order, horder, hclause⟩ := h.order
    refine ⟨order, horder, hclause.trans ?_⟩
    match order with
    | none | some (.identity _) =>
      rw [Spelling.clause, Spelling.clause, Spelling.identityClause, hid]
      rfl
    | some (.properties _) => rfl
  predicates node text hasks := by
    obtain ⟨leaf, hleaf, predicates, hpredicates, htext⟩ := h.predicates node text hasks
    rw [Spelling.leafPredicates_congr (hid .identity) (htypes .typeCheck)] at hpredicates
    exact ⟨leaf, hleaf, predicates, hpredicates, htext⟩

/-- The keys of a search are names in its order and in what it asks of identities, and stand as
they are in its projection and in what it asks of types. -/
theorem spellsKeys_mixed (h : ofRequest options request = .ok search) :
    search.SpellsKeys .mixed options request := by
  obtain ⟨order, horder, hselection, hplan, -⟩ := ofRequest_eq_ok h
  obtain ⟨_, -, -, -, -, -, hclause⟩ := Matching.ofCriteria_eq_ok hselection
  refine ⟨fun plan hsome => ?_, ⟨order, horder, ?_⟩, fun node text hasks => ?_⟩
  · rw [hsome] at hplan
    obtain ⟨columns, hcolumns⟩ := planOf_eq_ok hplan
    obtain ⟨-, -, -, -, hfields, hrecord⟩ := Scope.plan_getLast? hcolumns
    rw [hrecord, hfields]
    exact Scope.recordPart_eq _ columns
  · rw [hclause, Spelling.clause_eq]
  · obtain ⟨leaf, hleaf, predicates, hpredicates, htext⟩ :=
      Matching.ofCriteria_origins hselection hasks
    rw [leafPredicates_eq] at hpredicates
    exact ⟨leaf, hleaf, predicates, hpredicates, htext⟩

/-- With columns, keys that are names everywhere are plain: the projection has them as they are. -/
theorem SpellsKeys.isPlain (h : ofRequest options request = .ok search) {plan : Plan}
    (hplan : search.plan = some plan) (huniform : search.SpellsKeys .uniform options request) :
    Cypher.isPlain options.idKey = true ∧ Cypher.isPlain options.typesKey = true := by
  have hmixed := (spellsKeys_mixed h).projection plan hplan
  rw [huniform.projection plan hplan] at hmixed
  exact Spelling.isPlain_of_projection hmixed.symm

/-- **How internal keys are spelled.**  A search names them in its order and in what it asks of
identities as names, and in its projection and in what it asks of types as they were given.  So
they are names in all of these places if both are plain; and in a search with columns, only then. -/
theorem ofRequest_spellsKeys (h : ofRequest options request = .ok search) :
    search.SpellsKeys .mixed options request ∧
      (Cypher.isPlain options.idKey = true ∧ Cypher.isPlain options.typesKey = true →
        search.SpellsKeys .uniform options request) ∧
      ∀ plan, search.plan = some plan → search.SpellsKeys .uniform options request →
        Cypher.isPlain options.idKey = true ∧ Cypher.isPlain options.typesKey = true := by
  have hmixed := spellsKeys_mixed h
  refine ⟨hmixed, fun ⟨hid, htypes⟩ => ?_, fun plan hplan => SpellsKeys.isPlain h hplan⟩
  exact hmixed.congr (Spelling.mixed_eq_uniform hid) (Spelling.mixed_eq_uniform htypes)

/-- A request that uses both keys in all places: it tests an identity and a type, and it returns a
column. -/
def keyedRequest : Request where
  criteria := some (.object [("$id", .string "k"), ("size", .object [("$type", .string "number")])])
  aggregate := some (.object [("n",
    .object [("fn", .string "count"), ("alias", .string "$record")])])

/-- The keys that are used by default are plain. -/
theorem ofRequest_spellsKeys_plain :
    ∃ search, ofRequest {} keyedRequest = .ok search ∧
      search.SpellsKeys .mixed {} keyedRequest ∧ search.SpellsKeys .uniform {} keyedRequest := by
  obtain ⟨search, h⟩ := Results.exists_eq_ok
    (show (ofRequest {} keyedRequest).isOk = true by decide +kernel)
  obtain ⟨hmixed, huniform, -⟩ := ofRequest_spellsKeys h
  exact ⟨search, h, hmixed, huniform ⟨by decide +kernel, by decide +kernel⟩⟩

/-- A key with a blank stands between backticks in the order, but not in the projection. -/
theorem not_spellsKeys_spaced :
    let options : Options := { idKey := "my id" }
    let recordPart := "record \x7b.my id, .__proptypes, __label: " ++ options.labelOf "record"
      ++ ", n: n\x7d"
    ∃ search plan, ofRequest options keyedRequest = .ok search ∧ search.plan = some plan ∧
      search.selection.orderClause = "ORDER BY record.`my id` DESC" ∧
      plan.recordPart = recordPart ∧ ¬ search.SpellsKeys .uniform options keyedRequest := by
  intro options recordPart
  obtain ⟨search, h⟩ := Results.exists_eq_ok
    (show (ofRequest options keyedRequest).isOk = true by decide +kernel)
  have hshown : (ofRequest options keyedRequest).toOption.bind (fun found =>
      found.plan.map fun plan => (found.selection.orderClause, plan.recordPart)) =
        some ("ORDER BY record.`my id` DESC", recordPart) := by
    decide +kernel
  rw [h] at hshown
  obtain ⟨plan, hplan, htexts⟩ := Option.map_eq_some_iff.mp hshown
  obtain ⟨horder, hrecord⟩ := Prod.mk.inj htexts
  refine ⟨search, plan, h, hplan, horder, hrecord, fun huniform => ?_⟩
  exact absurd (SpellsKeys.isPlain h hplan huniform).1 (by decide +kernel)

end Search
end GraphSearch
