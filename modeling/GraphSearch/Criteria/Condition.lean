import GraphSearch.Json.Basic
/-!
# Conditions on a property

What the value of a property key asks for, as data: equality with one operand, or a
list of conditions that must all hold.  Operators exist as closed types only; which key
names which operator is said here once, beside each of them.
-/

namespace GraphSearch.Criteria

/-! ## 1.  Operators -/

/-- An order or inequality test. -/
inductive Comparator where
  | gt | gte | lt | lte | ne
  deriving DecidableEq, Repr, Inhabited

/-- The comparator a key names. -/
def Comparator.ofKey? : String → Option Comparator
  | "$gt" => some .gt
  | "$gte" => some .gte
  | "$lt" => some .lt
  | "$lte" => some .lte
  | "$ne" => some .ne
  | _ => none

/-- The sign of a comparator in query text. -/
def Comparator.symbol : Comparator → String
  | .gt => ">"
  | .gte => ">="
  | .lt => "<"
  | .lte => "<="
  | .ne => "<>"

/-- A test of a part of a text. -/
inductive TextTest where
  | contains | startsWith | endsWith
  deriving DecidableEq, Repr, Inhabited

/-- The text test a key names. -/
def TextTest.ofKey? : String → Option TextTest
  | "$contains" => some .contains
  | "$startsWith" => some .startsWith
  | "$endsWith" => some .endsWith
  | _ => none

/-- The words of a text test in query text. -/
def TextTest.keyword : TextTest → String
  | .contains => "CONTAINS"
  | .startsWith => "STARTS WITH"
  | .endsWith => "ENDS WITH"

/-- The type a store records for a property. -/
inductive PropertyType where
  | string | number | boolean | null | datetime | vector
  deriving DecidableEq, Repr, Inhabited

/-- The name of a property type. -/
def PropertyType.name : PropertyType → String
  | .string => "string"
  | .number => "number"
  | .boolean => "boolean"
  | .null => "null"
  | .datetime => "datetime"
  | .vector => "vector"

/-- The property type with the name given. -/
def PropertyType.ofName? : String → Option PropertyType
  | "string" => some .string
  | "number" => some .number
  | "boolean" => some .boolean
  | "null" => some .null
  | "datetime" => some .datetime
  | "vector" => some .vector
  | _ => none

/-! ## 2.  Parts of a date-time -/

/-- A part of a date-time. -/
inductive Component where
  | year | month | day | hour | minute | second | millisecond | microsecond | nanosecond
  deriving DecidableEq, Repr, Inhabited

namespace Component

/-- All components, the most significant first. -/
def all : List Component :=
  [.year, .month, .day, .hour, .minute, .second, .millisecond, .microsecond, .nanosecond]

/-- The name of a component. -/
def name : Component → String
  | .year => "year"
  | .month => "month"
  | .day => "day"
  | .hour => "hour"
  | .minute => "minute"
  | .second => "second"
  | .millisecond => "millisecond"
  | .microsecond => "microsecond"
  | .nanosecond => "nanosecond"

/-- The component a key names. -/
def ofKey? : String → Option Component
  | "$year" => some .year
  | "$month" => some .month
  | "$day" => some .day
  | "$hour" => some .hour
  | "$minute" => some .minute
  | "$second" => some .second
  | "$millisecond" => some .millisecond
  | "$microsecond" => some .microsecond
  | "$nanosecond" => some .nanosecond
  | _ => none

end Component

/-- Amounts of some components of a date-time. -/
abbrev DateParts := List (Component × Int)

/-! ## 3.  Operands -/

/-- A value without parts. -/
inductive Scalar where
  | null
  | bool (value : Bool)
  | number (value : Number)
  | string (value : String)
  deriving DecidableEq, Repr, Inhabited

/-- The scalar a JSON value is, if it is one. -/
def Scalar.ofJson? : Json → Option Scalar
  | .null => some .null
  | .bool b => some (.bool b)
  | .number n => some (.number n)
  | .string s => some (.string s)
  | .array _ => none
  | .object _ => none

/-- A scalar as a JSON value. -/
def Scalar.toJson : Scalar → Json
  | .null => .null
  | .bool b => .bool b
  | .number n => .number n
  | .string s => .string s

@[simp] theorem Scalar.ofJson?_toJson (s : Scalar) : ofJson? s.toJson = some s := by
  cases s <;> rfl

theorem Scalar.toJson_of_ofJson? {v : Json} {s : Scalar} (h : ofJson? v = some s) :
    s.toJson = v := by
  cases v <;> simp only [ofJson?, Option.some.injEq, reduceCtorEq] at h <;> subst h <;> rfl

/-- What a property is compared with. -/
inductive Operand where
  | scalar (value : Scalar)
  | date (parts : DateParts)
  deriving DecidableEq, Repr, Inhabited

/-- What is asked of the similarity of two vectors. -/
inductive Threshold where
  | atLeast (bound : Number)
  | range (bounds : List (Comparator × Number))
  deriving DecidableEq, Repr, Inhabited

/-- A comparison of a property with a query vector by a similarity function. -/
structure Similarity where
  function : String
  query : List Number
  threshold : Threshold
  deriving DecidableEq, Repr, Inhabited

/-! ## 4.  Conditions -/

/-- One condition on a property. -/
inductive Condition where
  | compare (comparator : Comparator) (operand : Operand)
  | oneOf (items : List Scalar)
  | noneOf (items : List Scalar)
  | text (test : TextTest) (needle : String)
  | present (expected : Bool)
  | hasType (type : PropertyType)
  | similar (similarity : Similarity)
  deriving DecidableEq, Repr, Inhabited

/-- What the value of a property key asks for. -/
inductive Expression where
  | equals (operand : Operand)
  | all (conditions : List Condition)
  deriving DecidableEq, Repr, Inhabited

end GraphSearch.Criteria
