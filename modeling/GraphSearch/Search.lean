import GraphSearch.Aggregate.Reader
import GraphSearch.Criteria.Normal
import GraphSearch.Request
import GraphSearch.Statement
/-!
# Searches

A search is a request compiled: the selection of its records, the plan of its
aggregation, and the statement that both come to.  The parts of a request are looked at
in a fixed order, the order of the records first and the aggregation last, so of two
faults the first of these is reported.
-/

namespace GraphSearch

open Matching (Selection)

/-- A compiled request. -/
structure Search where
  selection : Selection
  plan : Option Aggregate.Plan
  statement : String
  deriving Repr, Inhabited

namespace Search

/-! ## 1.  Compiling a request -/

/-- The criteria of a request, in normal form; none at all are `null`. -/
def criteriaOf (request : Request) : Json :=
  match request.criteria with
  | some criteria => Criteria.normalize criteria
  | none => .null

/-- The order of a request. -/
def orderOf (request : Request) : Except Rejection (Option SortOrder) :=
  match request.order with
  | some order => some <$> SortOrder.ofJson "orderBy" order
  | none => .ok none

/-- The plan of a request's aggregation, over the names its criteria declare. -/
def planOf (options : Options) (bindings : List (String × String)) (request : Request) :
    Except Rejection (Option Aggregate.Plan) :=
  match request.aggregate with
  | some aggregate => do
    let columns ← Aggregation.ofJson aggregate
    let scope : Aggregate.Scope := { options, bindings }
    some <$> scope.plan columns
  | none => .ok none

/-- Compiles a request. -/
def ofRequest (options : Options) (request : Request) : Except Rejection Search := do
  let order ← orderOf request
  let selection ← Selection.ofCriteria options (criteriaOf request) request.labels order
    request.skip request.limit
  let plan ← planOf options selection.bindings request
  return { selection, plan, statement := Statement.text options selection plan }

/-! ## 2.  Reports -/

/-- A list of texts as JSON. -/
def textsJson (texts : List String) : Json := .array (texts.map Json.string)

/-- A selection as JSON. -/
def selectionJson (selection : Selection) : Json :=
  .object [
    ("queryClauses", .string selection.whereClause),
    ("sortedQueryParts", textsJson (selection.hops.map Matching.OptionalMatch.text)),
    ("aliasesMap", .object (selection.bindings.map fun pair => (pair.1, .string pair.2))),
    ("nodeAliases", textsJson selection.aliases),
    ("rootPattern", .string selection.rootPattern),
    ("orderClause", .string selection.orderClause),
    ("pagination", .string selection.pagination),
    ("hasRelatedConditions", .bool selection.hasRelated),
    ("parsedWhere", selection.criteria),
    ("skip", .number (.int selection.skip)),
    ("limit", .number (.int selection.limit))]

/-- A stage as JSON. -/
def stageJson (stage : Aggregate.Stage) : Json :=
  .object [
    ("recordVariables", textsJson stage.carried),
    ("withStatement", .string stage.text)]

/-- A plan as JSON. -/
def planJson : Aggregate.Plan → Json
  | .flat stage recordPart fields =>
    .object [
      ("kind", .string "flat"),
      ("recordPart", .string recordPart),
      ("fields", textsJson fields),
      ("withPart", .string stage.text)]
  | .nested stages recordPart fields =>
    .object [
      ("kind", .string "nested"),
      ("statements", .array (stages.map stageJson)),
      ("recordPart", .string recordPart),
      ("fields", textsJson fields)]

/-- A search as JSON: everything it was compiled to. -/
def toJson (search : Search) : Json :=
  .object (
    [("where", selectionJson search.selection)]
      ++ (match search.plan with
          | some plan => [("aggregate", planJson plan)]
          | none => [])
      ++ [("statement", .string search.statement)])

end Search
end GraphSearch
