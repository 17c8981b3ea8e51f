import GraphSearch.Matching.Terms
import GraphSearch.SortOrder
/-!
# Selections

A selection is the half of a query that says which root records are wanted: the root
pattern, the optional matches that relations call for, the terms all rows must satisfy,
and which page of the root records is asked for, in which order.

Pages are cut as soon as the root records are known when there is nothing but root
records.  With optional matches a root record may fill several rows, and then the page
is left to the end of the statement (`pagination` is empty).
-/

namespace GraphSearch.Matching

/-- An optional match and the terms that filter its records. -/
structure OptionalMatch where
  pattern : Pattern
  terms : List Formula
  deriving Repr, Inhabited

/-- The clause of an optional match. -/
def OptionalMatch.text (hop : OptionalMatch) : String :=
  let clause := "OPTIONAL MATCH " ++ hop.pattern.text
  match hop.terms with
  | [] => clause
  | terms => clause ++ " WHERE " ++ joinAnd (terms.map Formula.text)

/-- Which root records are wanted. -/
structure Selection where
  /-- The criteria the selection was made from. -/
  criteria : Json
  rootAlias : String
  recordLabel : String
  labels : List String
  /-- The names of the matched aliases, the root first. -/
  aliases : List String
  hops : List OptionalMatch
  /-- What every row must satisfy. -/
  terms : List Formula
  /-- What the names declared by the filter stand for, in ascending order of these. -/
  bindings : List (String × String)
  orderClause : String
  skip : Nat
  limit : Nat
  deriving Repr, Inhabited

namespace Selection

/-! ## 1.  Making a selection -/

/-- Puts a pair in front of the first one whose key is not smaller. -/
def insertByKey (pair : String × String) : List (String × String) → List (String × String)
  | [] => [pair]
  | head :: rest =>
    if head.1 < pair.1 then head :: insertByKey pair rest else pair :: head :: rest

/-- Pairs in ascending order of their keys, by code points. -/
def sortByKey (pairs : List (String × String)) : List (String × String) :=
  pairs.foldr insertByKey []

/-- The optional matches of all matched aliases that have a pattern. -/
def hopsOf (context : Context) : List OptionalMatch :=
  (context.matchedIds.drop 1).filterMap fun id =>
    (context.pattern? id).map fun pattern =>
      { pattern, terms := (context.attached? id).getD [] }

/-- Takes the terms of the root record. -/
def takeRootTerms (context : Context) : List Formula × Context :=
  let (deferred, rest) := context.takeDeferred Context.root
  match deferred with
  | some terms => (terms, rest)
  | none => ((rest.attached? Context.root).getD [], rest)

/-- Selects the root records with the labels given that satisfy the criteria. -/
def ofCriteria (options : Options) (criteria : Json) (labels : List String)
    (order : Option SortOrder) (skip limit : Option Nat) : Except Rejection Selection :=
  match (rootTerms criteria).run (Context.start options) with
  | .error rejection _ => .error rejection
  | .ok _ context =>
    let (terms, context) := takeRootTerms context
    .ok {
      criteria, labels, terms
      rootAlias := options.rootAlias
      recordLabel := options.recordLabel
      aliases := context.matchedNames
      hops := hopsOf context
      bindings := sortByKey context.bindings
      orderClause := SortOrder.clause options order
      skip := skip.getD 0
      limit := limit.getD options.defaultLimit }

/-! ## 2.  Its clauses -/

/-- Relations were followed, so that a root record may fill several rows. -/
def hasRelated (selection : Selection) : Bool := 1 < selection.aliases.length

/-- The root pattern; a single label stands in it. -/
def rootPattern (selection : Selection) : String :=
  let node := selection.rootAlias ++ ":" ++ selection.recordLabel
  match selection.labels with
  | [label] => "(" ++ node ++ ":" ++ Cypher.quoted label ++ ")"
  | _ => "(" ++ node ++ ")"

/-- The test for one of several labels. -/
def labelTests (selection : Selection) : List String :=
  if 1 < selection.labels.length then
    ["any(label IN labels(" ++ selection.rootAlias ++ ") WHERE label IN "
      ++ Cypher.list (selection.labels.map Json.string) ++ ")"]
  else []

/-- Everything a row must satisfy, as text. -/
def conditions (selection : Selection) : List String :=
  ["(" ++ selection.rootAlias ++ " IS NOT NULL)"] ++ selection.labelTests
    ++ selection.terms.map Formula.text

/-- The `WHERE` clause. -/
def whereClause (selection : Selection) : String := "WHERE " ++ joinAnd selection.conditions

/-- The page of the root records. -/
def page (selection : Selection) : String :=
  "SKIP " ++ toString selection.skip ++ " LIMIT " ++ toString selection.limit

/-- The page, where the root records alone can be cut into pages. -/
def pagination (selection : Selection) : String :=
  if selection.hasRelated then "" else selection.page

end Selection
end GraphSearch.Matching
