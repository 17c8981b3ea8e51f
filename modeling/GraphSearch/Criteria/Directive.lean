import GraphSearch.Criteria.Key
import GraphSearch.Table
/-!
# Directives

Two keys of a criteria object say something about its records instead of filtering
them: `$alias` names them for the aggregation, and `$relation` says by which relation,
and in which direction, they are reached.  A directive that is not understood is
passed over.
-/

namespace GraphSearch.Criteria

/-- Which way a relation points, seen from the outer record. -/
inductive Direction where
  | incoming
  | outgoing
  | undirected
  deriving DecidableEq, Repr, Inhabited

/-- How related records are reached: by any relation unless a type is given. -/
structure Relation where
  type : Option String := none
  direction : Direction := .undirected
  deriving DecidableEq, Repr, Inhabited

/-- The direction a value names. -/
def Direction.ofJson : Option Json → Direction
  | some (.string "in") => .incoming
  | some (.string "out") => .outgoing
  | _ => .undirected

/-- The relation a `$relation` directive describes: a text is a type, an object may
have a type and a direction. -/
def Relation.ofJson : Option Json → Relation
  | some (.string type) => { type := some type }
  | some (.object fields) =>
    { type := (Table.find? "type" fields).bind Json.string?
      direction := Direction.ofJson (Table.find? "direction" fields) }
  | _ => {}

/-- The relation that a criteria object asks for. -/
def relationOf (fields : List (String × Json)) : Relation :=
  Relation.ofJson (Table.find? relationKey fields)

/-- The name that a criteria object gives its records. -/
def aliasOf (fields : List (String × Json)) : Option String :=
  (Table.find? aliasKey fields).bind Json.string?

end GraphSearch.Criteria
