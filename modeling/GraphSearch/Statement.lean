import GraphSearch.Aggregate.Plan
import GraphSearch.Matching.Selection
/-!
# Statements

A statement is a list of lines, each a clause of its own:

    MATCH      the root records
    OPTIONAL MATCH …                  one for each matched relation
    WITH       all aliases
    WHERE      what every row satisfies
    WITH … ORDER BY … SKIP … LIMIT …  if there are only root records
    WITH …                            one for each stage of the aggregation
    WITH … ORDER BY … SKIP … LIMIT …  if there are others
    RETURN     the root records and their columns

The page is cut on exactly one line.
-/

namespace GraphSearch

open Matching (Selection)

/-- A line of a statement. -/
inductive StatementLine where
  | root (pattern : String)
  | hop (clause : String)
  | scope (aliases : List String)
  | filter (clause : String)
  /-- Cuts the page of the rows left, distinct ones if that is asked for. -/
  | page (distinct : Bool) (carried : List String) (order cut : String)
  | stage (stage : Aggregate.Stage)
  | result (projection : String)
  deriving DecidableEq, Repr, Inhabited

/-- The text of a line. -/
def StatementLine.text : StatementLine → String
  | .root pattern => "MATCH " ++ pattern
  | .hop clause => clause
  | .scope aliases => "WITH " ++ ", ".intercalate aliases
  | .filter clause => clause
  | .page distinct carried order cut =>
    "WITH " ++ Aggregate.distinctText distinct ++ ", ".intercalate carried
      ++ " " ++ order ++ " " ++ cut
  | .stage s => s.text
  | .result projection => "RETURN " ++ projection

namespace Statement

/-- The page of a selection without relations. -/
def earlyPage (options : Options) (selection : Selection) : List StatementLine :=
  if selection.hasRelated then []
  else [.page false [options.rootAlias] selection.orderClause selection.page]

/-- The page of a selection with relations, cut after the aggregation. -/
def latePage (options : Options) (selection : Selection)
    (plan : Option Aggregate.Plan) : List StatementLine :=
  if selection.hasRelated then
    match plan with
    | some plan =>
      [.page false (options.rootAlias :: plan.fields) selection.orderClause selection.page]
    | none => [.page true [options.rootAlias] selection.orderClause selection.page]
  else []

/-- What is returned of a root record. -/
def projection (options : Options) : Option Aggregate.Plan → String
  | some plan => plan.recordPart
  | none =>
    options.rootAlias ++ " \x7b.*, " ++ Cypher.name options.labelKey ++ ": "
      ++ options.labelOf options.rootAlias ++ "\x7d"

/-- The lines that say which root records are wanted. -/
def opening (options : Options) (selection : Selection) : List StatementLine :=
  [.root selection.rootPattern]
    ++ selection.hops.map (fun hop => .hop hop.text)
    ++ [.scope selection.aliases, .filter selection.whereClause]
    ++ earlyPage options selection

/-- The stages of an aggregation, if there is one. -/
def stages : Option Aggregate.Plan → List Aggregate.Stage
  | some plan => plan.stages
  | none => []

/-- The lines after the aggregation. -/
def closing (options : Options) (selection : Selection) (plan : Option Aggregate.Plan) :
    List StatementLine :=
  latePage options selection plan ++ [.result (projection options plan)]

/-- The lines of a statement. -/
def lines (options : Options) (selection : Selection)
    (plan : Option Aggregate.Plan) : List StatementLine :=
  opening options selection ++ (stages plan).map .stage ++ closing options selection plan

/-- The text of a statement. -/
def text (options : Options) (selection : Selection)
    (plan : Option Aggregate.Plan) : String :=
  "\n".intercalate ((lines options selection plan).map StatementLine.text)

end Statement
end GraphSearch
