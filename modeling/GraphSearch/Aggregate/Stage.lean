import GraphSearch.Aggregate.Basic
/-!
# Stages

A stage is one `WITH` of an aggregation.  It carries variables through, which are also
what its rows are grouped by, and binds one output column after the other.  A `WITH`
drops everything that it does not list, so what later stages read has to be carried by
all before them.
-/

namespace GraphSearch.Aggregate

/-- The elements of a collected list that are kept: from `skip` on, up to and not
including `stop`. -/
structure Window where
  skip : Nat
  stop : Nat
  deriving DecidableEq, Repr, Inhabited

/-- The slice of a window. -/
def Window.text (window : Window) : String :=
  "[" ++ toString window.skip ++ ".." ++ toString window.stop ++ "]"

/-- What a column computes, in terms of the aliases of the query. -/
inductive ColumnExpr where
  /-- An accumulated value of the records of an alias, or of one of their properties. -/
  | accumulated (function : Accumulator) (distinct : Bool) (node : String)
      (field : Option String) (precision : Option Nat)
  /-- The values of a property. -/
  | values (distinct : Bool) (node field : String) (window : Window)
  /-- The records of an alias, each with inner columns and with its label. -/
  | records (distinct : Bool) (node : String) (inner : List String) (label : String)
      (sortKey : String) (window : Window)
  deriving DecidableEq, Repr, Inhabited

/-- The word for records or values that are taken once only. -/
def distinctText (distinct : Bool) : String := if distinct then "DISTINCT " else ""

/-- A variable that is handed on under the name it has. -/
def carryField (field : String) : String := Cypher.name field ++ ": " ++ Cypher.name field

/-- The text of a column. -/
def ColumnExpr.text : ColumnExpr → String
  | .accumulated function distinct node field precision =>
    let target := match field with
      | some field => Cypher.member node field
      | none => node
    let call := function.name ++ "(" ++ distinctText distinct ++ target ++ ")"
    match function, precision with
    | .avg, some precision => "round(" ++ call ++ ", " ++ toString precision ++ ")"
    | _, _ => call
  | .values distinct node field window =>
    "collect(" ++ distinctText distinct ++ Cypher.member node field ++ ")" ++ window.text
  | .records distinct node inner label sortKey window =>
    let entries := [".*"] ++ inner.map carryField ++ [label]
    "apoc.coll.sortMaps(collect(" ++ distinctText distinct ++ node ++ " \x7b"
      ++ ", ".intercalate entries ++ "\x7d), " ++ Json.quote sortKey ++ ")" ++ window.text

/-- The alias a column aggregates over. -/
def ColumnExpr.node : ColumnExpr → String
  | .accumulated _ _ node _ _ => node
  | .values _ node _ _ => node
  | .records _ node _ _ _ _ => node

/-- The inner columns a column hands on. -/
def ColumnExpr.inner : ColumnExpr → List String
  | .accumulated _ _ _ _ _ => []
  | .values _ _ _ _ => []
  | .records _ _ inner _ _ _ => inner

/-- An output column of a stage. -/
structure Column where
  field : String
  expr : ColumnExpr
  deriving DecidableEq, Repr, Inhabited

/-- The text of an output column. -/
def Column.text (column : Column) : String :=
  column.expr.text ++ " AS " ++ Cypher.name column.field

/-- One `WITH` of an aggregation. -/
structure Stage where
  carried : List String
  columns : List Column
  deriving DecidableEq, Repr, Inhabited

/-- The text of a stage. -/
def Stage.text (stage : Stage) : String :=
  "WITH " ++ ", ".intercalate (stage.carried ++ stage.columns.map Column.text)

end GraphSearch.Aggregate
