import GraphSearch.SortOrder
/-!
# Aggregations

An aggregation is a list of named output columns.  Each column reads the records of one
alias: it accumulates them into a value, or it collects them into a list.  A list of
records may carry columns of an inner aggregation along, computed for each of its
records (`Aggregate.rollUp`).
-/

namespace GraphSearch

/-- A function that accumulates values. -/
inductive Accumulator where
  | count | sum | avg | min | max
  deriving DecidableEq, Repr, Inhabited

/-- The name of an accumulator. -/
def Accumulator.name : Accumulator → String
  | .count => "count"
  | .sum => "sum"
  | .avg => "avg"
  | .min => "min"
  | .max => "max"

/-- The accumulator with the name given. -/
def Accumulator.ofName? : String → Option Accumulator
  | "count" => some .count
  | "sum" => some .sum
  | "avg" => some .avg
  | "min" => some .min
  | "max" => some .max
  | _ => none

/-- An accumulated value. -/
structure Accumulation where
  function : Accumulator
  source : String
  /-- The property that is accumulated; the records themselves without one. -/
  field : Option String
  distinct : Bool
  /-- The decimals an average is rounded to. -/
  precision : Option Nat
  deriving DecidableEq, Repr, Inhabited

/-- A collected list. -/
structure Collection where
  source : String
  /-- The property that is collected; the records themselves without one. -/
  field : Option String
  distinct : Bool
  limit : Option Nat
  skip : Option Nat
  order : Option SortOrder
  deriving DecidableEq, Repr, Inhabited

/-- What one output column is. -/
inductive Aggregate where
  | accumulate (accumulation : Accumulation)
  | collect (collection : Collection)
  /-- Records that carry the columns of an inner aggregation. -/
  | rollUp (collection : Collection) (inner : List (String × Aggregate))
  deriving Repr, Inhabited

/-- The columns of an aggregation, in order. -/
abbrev Aggregation := List (String × Aggregate)

/-- The alias a column reads, as the filter declared it. -/
def Aggregate.source : Aggregate → String
  | .accumulate accumulation => accumulation.source
  | .collect collection => collection.source
  | .rollUp collection _ => collection.source

/-- The column has an inner aggregation. -/
def Aggregate.isRollUp : Aggregate → Bool
  | .rollUp _ _ => true
  | .accumulate _ | .collect _ => false

/-- Some column has an inner aggregation. -/
def Aggregation.isNested (columns : Aggregation) : Bool :=
  columns.any fun column => column.2.isRollUp

end GraphSearch
