import GraphSearch.Aggregate.Stage
import GraphSearch.Table
/-!
# Plans

An aggregation is compiled to stages.  Without inner aggregations one stage computes
all columns (`flatPlan`).  With inner ones every level gets a stage of its own, before
the stage of the level around it and grouped by the aliases on the way down to it
(`nestedPlan`); an inner stage carries along

* what the stages after it already need,
* the aliases of its outer level,
* the columns that earlier inner stages of that level have computed, and
* every alias that later columns of that level read, at any depth.

The aliases of a level are looked up before anything below it is compiled, so an
unknown alias is reported in the order in which levels are entered.
-/

namespace GraphSearch.Aggregate

/-- What a plan is made from, besides the aggregation: the options and what the names
declared by the filter stand for. -/
structure Scope where
  options : Options
  bindings : List (String × String)

namespace Scope

/-! ## 1.  Columns -/

/-- The alias a column reads. -/
def resolve (scope : Scope) (column : String × Aggregate) : Except Rejection String :=
  match Table.find? column.2.source scope.bindings with
  | some node => .ok node
  | none => .error (.unknownAlias column.1 column.2.source)

/-- What a sort key starts with when it sorts in ascending order. -/
def ascendingMark : String := "^"

/-- The key that collected records are sorted by: the first property of the order, or
their identity. -/
def sortKey (scope : Scope) (order : Option SortOrder) : String :=
  let byIdentity : String × SortDirection := (scope.options.idKey, .ascending)
  let (property, direction) := match order with
    | none => byIdentity
    | some (.identity direction) => (scope.options.idKey, direction)
    | some (.properties []) => byIdentity
    | some (.properties (key :: _)) => key
  match direction with
  | .ascending => ascendingMark ++ property
  | .descending => property

/-- The window of a collection, which must end at a 64-bit number. -/
def window (scope : Scope) (column : String) (collection : Collection) :
    Except Rejection Window :=
  let skip := collection.skip.getD 0
  let limit := collection.limit.getD scope.options.defaultCollectLimit
  if skip + limit < Nat.pow 2 64 then .ok ⟨skip, skip + limit⟩
  else
    .error (.invalidAggregate column (.windowOverflow skip limit)
      (.object [("skip", .number (.int skip)), ("limit", .number (.int limit))]))

/-- The label of the records of an alias, under the key it is returned by. -/
def labelEntry (scope : Scope) (node : String) : String :=
  Cypher.name scope.options.labelKey ++ ": " ++ scope.options.labelOf node

/-- A collected list, of a property or of records with inner columns. -/
def collected (scope : Scope) (column node : String) (collection : Collection)
    (inner : List String) : Except Rejection ColumnExpr := do
  let window ← scope.window column collection
  match collection.field with
  | some field => return .values collection.distinct node field window
  | none =>
    return .records collection.distinct node inner (scope.labelEntry node)
      (scope.sortKey collection.order) window

/-- The names of the columns of an aggregation. -/
def fieldsOf (columns : Aggregation) : List String := columns.map Prod.fst

/-- The names of the inner columns of a column. -/
def fieldsInside : Aggregate → List String
  | .rollUp _ inner => fieldsOf inner
  | .collect _ | .accumulate _ => []

/-- Compiles one column. -/
def columnOf (scope : Scope) (column : String × Aggregate) : Except Rejection Column := do
  let node ← scope.resolve column
  let expr ← match column.2 with
    | .accumulate a => pure (.accumulated a.function a.distinct node a.field a.precision)
    | .collect collection => scope.collected column.1 node collection []
    | .rollUp collection inner => scope.collected column.1 node collection (fieldsOf inner)
  return { field := column.1, expr }

/-! ## 2.  Levels -/

mutual

/-- The aliases that columns read, at any depth, each before those below it. -/
def aliasesBelow (scope : Scope) : Aggregation → Except Rejection (List String)
  | [] => .ok []
  | (field, aggregate) :: columns => do
    let node ← scope.resolve (field, aggregate)
    let below ← scope.aliasesInside aggregate
    let others ← scope.aliasesBelow columns
    return node :: (below ++ others)

/-- The aliases that the inner columns of a column read. -/
def aliasesInside (scope : Scope) : Aggregate → Except Rejection (List String)
  | .rollUp _ inner => scope.aliasesBelow inner
  | .collect _ => .ok []
  | .accumulate _ => .ok []

end

/-- The stages of a level: those of the levels inside it, which `inside` compiles when
it is given the level's own aliases, and then its own. -/
def levelStages (scope : Scope) (columns : Aggregation) (grouping carry : List String)
    (inside : List String → Except Rejection (List Stage)) :
    Except Rejection (List Stage) := do
  let aliases ← columns.mapM scope.resolve
  let before ← inside aliases
  let own ← columns.mapM scope.columnOf
  return before ++ [{ carried := (grouping ++ carry).eraseDups, columns := own }]

mutual

/-- The stages of all levels inside a level, given what identifies a row of that level,
what is needed after it, its own aliases included, and the columns its inner stages have
computed so far. -/
def innerStages (scope : Scope) (grouping needed produced : List String) :
    Aggregation → Except Rejection (List Stage)
  | [] => .ok []
  | (field, aggregate) :: columns => do
    let stages ← scope.columnStages field grouping (needed ++ produced)
      (scope.aliasesBelow columns) aggregate
    let others ← scope.innerStages grouping needed (produced ++ fieldsInside aggregate) columns
    return stages ++ others

/-- The stages of the level inside a column, given what is needed after it and the aliases
of the columns after it. -/
def columnStages (scope : Scope) (field : String) (grouping needed : List String)
    (later : Except Rejection (List String)) : Aggregate → Except Rejection (List Stage)
  | .rollUp collection inner => do
    let node ← scope.resolve (field, .rollUp collection inner)
    let later ← later
    let grouping' := (grouping ++ [node]).eraseDups
    let carry := (needed ++ later).eraseDups
    scope.levelStages inner grouping' carry fun aliases =>
      scope.innerStages grouping' (carry ++ aliases) [] inner
  | .collect _ => .ok []
  | .accumulate _ => .ok []

end

end Scope

/-! ## 3.  Plans -/

/-- How an aggregation is computed, and how its columns are returned. -/
inductive Plan where
  | flat (stage : Stage) (recordPart : String) (fields : List String)
  | nested (stages : List Stage) (recordPart : String) (fields : List String)
  deriving DecidableEq, Repr, Inhabited

/-- The stages in the order they are executed. -/
def Plan.stages : Plan → List Stage
  | .flat stage _ _ => [stage]
  | .nested stages _ _ => stages

/-- The projection of the root record with its columns. -/
def Plan.recordPart : Plan → String
  | .flat _ recordPart _ => recordPart
  | .nested _ recordPart _ => recordPart

/-- The names the last stage binds for the columns of the root record. -/
def Plan.fields : Plan → List String
  | .flat _ _ fields => fields
  | .nested _ _ fields => fields

namespace Scope

/-- The projection of the root record: its internal keys and its columns. -/
def recordPart (scope : Scope) (columns : Aggregation) : String :=
  let root := scope.options.rootAlias
  let entries :=
    ["." ++ scope.options.idKey, "." ++ scope.options.typesKey, scope.labelEntry root]
      ++ (fieldsOf columns).map carryField
  root ++ " \x7b" ++ ", ".intercalate entries ++ "\x7d"

/-- The names of the columns as they are written. -/
def outputNames (columns : Aggregation) : List String := (fieldsOf columns).map Cypher.name

/-- Computes all columns in one stage. -/
def flatPlan (scope : Scope) (columns : Aggregation) : Except Rejection Plan := do
  let own ← columns.mapM scope.columnOf
  return .flat { carried := [scope.options.rootAlias], columns := own }
    (scope.recordPart columns) (outputNames columns)

/-- Computes every level in a stage of its own, inner levels first. -/
def nestedPlan (scope : Scope) (columns : Aggregation) : Except Rejection Plan := do
  let root := [scope.options.rootAlias]
  let stages ← scope.levelStages columns root [] fun aliases =>
    scope.innerStages root aliases [] columns
  return .nested stages (scope.recordPart columns) (outputNames columns)

/-- The plan of an aggregation. -/
def plan (scope : Scope) (columns : Aggregation) : Except Rejection Plan :=
  if columns.isNested then scope.nestedPlan columns else scope.flatPlan columns

end Scope
end GraphSearch.Aggregate
