import GraphSearch.Criteria.Condition
import GraphSearch.Rejection
import GraphSearch.Table
/-!
# Reading the value of a property key

A scalar asks for equality.  An object that mentions a component of a date-time is a
date-time, and every key of it must be a component; any other object is a list of
conditions, one to each entry and in the order of the entries.  The first entry that
is not understood is the reason why the whole value is refused.

The parts of a date-time are listed from the most significant one on, whatever order
they were written in (`arrange`).
-/

namespace GraphSearch.Criteria

/-! ## 1.  Date-times -/

/-- One of the entries names a component of a date-time. -/
def mentionsComponent (fields : List (String × Json)) : Bool :=
  fields.any fun field => (Component.ofKey? field.1).isSome

/-- Reads one entry of a date-time; `whole` is the date-time it stands in. -/
def readPart (key : String) (whole : Json) (field : String × Json) :
    Except Rejection (Component × Int) :=
  match Component.ofKey? field.1, field.2 with
  | none, _ => .error (.unknownComponent key field.1 whole)
  | some component, .number (.int amount) => .ok (component, amount)
  | some _, amount => .error (.invalidOperand key field.1 amount)

/-- The parts from the most significant on. -/
def arrange (parts : DateParts) : DateParts :=
  Component.all.filterMap fun component =>
    (Table.find? component parts).map fun amount => (component, amount)

/-- Reads a date-time, which must have a year. -/
def readDate (key : String) (fields : List (String × Json)) :
    Except Rejection DateParts := do
  let parts ← fields.mapM (readPart key (.object fields))
  if parts.any fun part => part.1 = .year then return arrange parts
  else throw (.missingYear key (.object fields))

/-! ## 2.  Operands -/

/-- Reads what a comparator compares with. -/
def readOperand (key operator : String) (operand : Json) : Except Rejection Operand :=
  match operand with
  | .null => .ok (.scalar .null)
  | .bool b => .ok (.scalar (.bool b))
  | .number n => .ok (.scalar (.number n))
  | .string s => .ok (.scalar (.string s))
  | .object fields =>
    if mentionsComponent fields then (readDate key fields).map Operand.date
    else .error (.invalidOperand key operator operand)
  | .array _ => .error (.invalidOperand key operator operand)

/-- Reads a list of scalars. -/
def readScalars (key operator : String) (operand : Json) :
    Except Rejection (List Scalar) :=
  match operand with
  | .array items => match items.mapM Scalar.ofJson? with
    | some scalars => .ok scalars
    | none => .error (.invalidOperand key operator operand)
  | _ => .error (.invalidOperand key operator operand)

/-! ## 3.  Similarity -/

/-- The key of a similarity condition. -/
def vectorKey : String := "$vector"

/-- What the names of all similarity functions start with. -/
def similarityNamespace : String := "gds.similarity."

/-- The full name of a similarity function. -/
def similarityFunction (name : String) : String :=
  if similarityNamespace.toList.isPrefixOf name.toList then name
  else similarityNamespace ++ name

/-- Reads one bound of a range of similarities. -/
def readBound (key : String) (field : String × Json) :
    Except Rejection (Comparator × Number) :=
  match Comparator.ofKey? field.1, field.2 with
  | none, bound => .error (.unknownOperator key field.1 bound)
  | some comparator, .number bound => .ok (comparator, bound)
  | some _, bound => .error (.invalidOperand key field.1 bound)

/-- Reads a similarity condition: a function, a query vector that is not empty, and a
threshold, either a least similarity or a range that is not empty. -/
def readSimilarity (key : String) (operand : Json) : Except Rejection Similarity := do
  let invalid := Rejection.invalidOperand key vectorKey operand
  let .object fields := operand | throw invalid
  let some (.string function) := Table.find? "fn" fields | throw invalid
  let some (.array (first :: others)) := Table.find? "query" fields | throw invalid
  let some query := (first :: others).mapM Json.number? | throw invalid
  let threshold ← match Table.find? "threshold" fields with
    | some (.number bound) => pure (.atLeast bound)
    | some (.object (bound :: bounds)) =>
      (Threshold.range ·) <$> (bound :: bounds).mapM (readBound key)
    | _ => throw invalid
  return { function := similarityFunction function, query, threshold }

/-! ## 4.  Conditions and expressions -/

/-- Reads one entry of an object of conditions. -/
def readCondition (key : String) (field : String × Json) : Except Rejection Condition :=
  let (operator, operand) := field
  match Comparator.ofKey? operator with
  | some comparator => (readOperand key operator operand).map (Condition.compare comparator)
  | none => match TextTest.ofKey? operator with
    | some test => match operand with
      | .string needle => .ok (.text test needle)
      | _ => .error (.invalidOperand key operator operand)
    | none => match operator with
      | "$in" => (readScalars key operator operand).map Condition.oneOf
      | "$nin" => (readScalars key operator operand).map Condition.noneOf
      | "$exists" => match operand with
        | .bool expected => .ok (.present expected)
        | _ => .error (.invalidExists key operand)
      | "$type" => match operand.string?.bind PropertyType.ofName? with
        | some type => .ok (.hasType type)
        | none => .error (.invalidType key operand)
      | "$vector" => (readSimilarity key operand).map Condition.similar
      | _ => .error (.unknownOperator key operator operand)

/-- Reads the value of a property key. -/
def readExpression (key : String) (value : Json) : Except Rejection Expression :=
  match value with
  | .null => .ok (.equals (.scalar .null))
  | .bool b => .ok (.equals (.scalar (.bool b)))
  | .number n => .ok (.equals (.scalar (.number n)))
  | .string s => .ok (.equals (.scalar (.string s)))
  | .array _ => .error (.arrayForScalar key value)
  | .object fields =>
    if mentionsComponent fields then
      (readDate key fields).map fun parts => .equals (.date parts)
    else (fields.mapM (readCondition key)).map Expression.all

end GraphSearch.Criteria
