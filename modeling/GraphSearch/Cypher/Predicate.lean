import GraphSearch.Criteria.Expression
import GraphSearch.Criteria.Key
import GraphSearch.Cypher.Literal
import GraphSearch.Options
import GraphSearch.Unicode.LowerCase
/-!
# Predicates on a property

Properties are stored as arrays, a single value as an array of one, so a predicate on
a value asks whether *any* element satisfies it.  What type a property was declared
with is asked of the map of types that each record carries.

A property expression becomes a list of predicates that are to be conjoined.  The same
predicate is never listed twice: conditions on date-times all bring the assertion that
the property is one, and only the first is kept (`expressionPredicates`).

The identity of a record is not an array and is compared directly; only those
conditions that make sense for it are accepted (`identityPredicates`).
-/

namespace GraphSearch.Cypher

open Criteria

/-! ## 1.  Pieces -/

/-- A property of the records of an alias. -/
structure Property where
  node : String
  key : String
  deriving DecidableEq, Repr

/-- The property in query text. -/
def Property.text (property : Property) : String := member property.node property.key

/-- Some element of the property, called `value`, satisfies the test. -/
def Property.any (property : Property) (test : String) : String :=
  "any(value IN " ++ property.text ++ " WHERE " ++ test ++ ")"

theorem Property.any_injective {property : Property} {test other : String}
    (h : property.any test = property.any other) : test = other := by
  simpa [Property.any] using h

/-- The property is there and has an element. -/
def Property.isPresent (property : Property) : String :=
  "(" ++ property.text ++ " IS NOT NULL AND size(" ++ property.text ++ ") > 0)"

/-- The property was declared with the type given. -/
def Property.typeCheck (options : Options) (property : Property) (type : PropertyType) :
    String :=
  member (options.typesOf property.node) property.key ++ " = " ++ string type.name

/-- The literal of a scalar. -/
def scalarLiteral (value : Scalar) : String := literal value.toJson

/-- The list literal of scalars. -/
def scalarList (items : List Scalar) : String := listOf (items.map scalarLiteral)

/-- A date-time made of its parts. -/
def dateLiteral (parts : DateParts) : String :=
  "datetime(\x7b"
    ++ ", ".intercalate (parts.map fun part => part.1.name ++ ": " ++ toString part.2)
    ++ "\x7d)"

/-- An operand; what stands in the store for an absent value is compared in its place. -/
def operandText (options : Options) : Operand → String
  | .scalar .null => string options.nullSentinel
  | .scalar value => scalarLiteral value
  | .date parts => dateLiteral parts

/-- The element `value` agrees with all parts of a date-time. -/
def partsMatch (parts : DateParts) : String :=
  " AND ".intercalate (parts.map fun part =>
    "value." ++ part.1.name ++ " = " ++ toString part.2)

/-! ## 2.  Conditions -/

/-- The predicates of a similarity condition: one, or one to each bound of a range. -/
def similarityPredicates (property : Property) (similarity : Similarity) : List String :=
  let call := similarity.function ++ "(" ++ property.text ++ ", "
    ++ listOf (similarity.query.map Number.toText) ++ ")"
  match similarity.threshold with
  | .atLeast bound => [call ++ " >= " ++ bound.toText]
  | .range bounds => bounds.map fun bound =>
      call ++ " " ++ bound.1.symbol ++ " " ++ bound.2.toText

/-- The predicates of one condition. -/
def conditionPredicates (options : Options) (property : Property) :
    Condition → List String
  | .compare comparator (.date parts) =>
    [property.typeCheck options .datetime,
      property.any ("value " ++ comparator.symbol ++ " " ++ operandText options (.date parts))]
  | .compare comparator (.scalar value) =>
    [property.any ("value " ++ comparator.symbol ++ " " ++ operandText options (.scalar value))]
  | .oneOf items => [property.any ("value IN " ++ scalarList items)]
  | .noneOf items =>
    ["none(value IN " ++ property.text ++ " WHERE value IN " ++ scalarList items ++ ")"]
  | .text test needle =>
    [property.any ("toLower(value) " ++ test.keyword ++ " " ++ string (Unicode.toLower needle))]
  | .present true => [property.isPresent]
  | .present false => ["NOT " ++ property.isPresent]
  | .hasType type => [property.typeCheck options type]
  | .similar similarity => similarityPredicates property similarity

/-- The predicates of an expression, none of them twice. -/
def expressionPredicates (options : Options) (property : Property) :
    Expression → List String
  | .equals (.date parts) =>
    [property.typeCheck options .datetime, property.any (partsMatch parts)].eraseDups
  | .equals (.scalar value) =>
    [property.any ("value = " ++ operandText options (.scalar value))]
  | .all conditions => (conditions.flatMap (conditionPredicates options property)).eraseDups

/-- Reads the value of a property key and writes its predicates. -/
def propertyPredicates (options : Options) (node key : String) (value : Json) :
    Except Rejection (List String) :=
  (readExpression key value).map (expressionPredicates options ⟨node, key⟩)

/-! ## 3.  Identity -/

/-- The predicate of one condition on the identity `id`; `whole` is the value of the
identity key it stands in. -/
def identityCondition (id : String) (whole : Json) : Condition → Except Rejection String
  | .compare comparator (.scalar value) =>
    if value = .null then .error (.invalidOperand idKey idKey whole)
    else .ok (id ++ " " ++ comparator.symbol ++ " " ++ scalarLiteral value)
  | .oneOf items => .ok (id ++ " IN " ++ scalarList items)
  | .noneOf items => .ok ("NOT " ++ id ++ " IN " ++ scalarList items)
  | _ => .error (.invalidOperand idKey idKey whole)

/-- Reads the value of the identity key and writes its predicates. -/
def identityPredicates (options : Options) (node : String) (value : Json) :
    Except Rejection (List String) := do
  let id := member node options.idKey
  match ← readExpression idKey value with
  | .equals (.scalar .null) => return [id ++ " IS NULL"]
  | .equals (.scalar scalar) => return [id ++ " = " ++ scalarLiteral scalar]
  | .equals (.date _) => throw (.invalidOperand idKey "$eq" value)
  | .all conditions => conditions.mapM (identityCondition id value)

end GraphSearch.Cypher
