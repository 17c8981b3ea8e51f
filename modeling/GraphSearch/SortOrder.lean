import GraphSearch.Cypher.Name
import GraphSearch.Options
import GraphSearch.Rejection
/-!
# Orders

Records are ordered by their identity, in a direction, or by a list of properties,
each with its own direction.
-/

namespace GraphSearch

/-- A direction to sort in. -/
inductive SortDirection where
  | ascending
  | descending
  deriving DecidableEq, Repr, Inhabited

/-- The direction with the name given. -/
def SortDirection.ofName? : String → Option SortDirection
  | "asc" => some .ascending
  | "desc" => some .descending
  | _ => none

/-- The keyword of a direction. -/
def SortDirection.keyword : SortDirection → String
  | .ascending => "ASC"
  | .descending => "DESC"

/-- How records are ordered. -/
inductive SortOrder where
  /-- By identity. -/
  | identity (direction : SortDirection)
  /-- By properties, the first one first. -/
  | properties (keys : List (String × SortDirection))
  deriving DecidableEq, Repr, Inhabited

namespace SortOrder

/-- Reads one property of an order. -/
def readKey (field : String × Json) : Option (String × SortDirection) :=
  (field.2.string?.bind SortDirection.ofName?).map (field.1, ·)

/-- Reads an order, a direction or an object of directions that is not empty; `key` is
the key it is read for. -/
def ofJson (key : String) (value : Json) : Except Rejection SortOrder :=
  let invalid := Rejection.invalidOperand key "orderBy" value
  match value with
  | .string name => match SortDirection.ofName? name with
    | some direction => .ok (.identity direction)
    | none => .error invalid
  | .object (field :: fields) => match (field :: fields).mapM readKey with
    | some keys => .ok (.properties keys)
    | none => .error invalid
  | _ => .error invalid

/-- One key of an `ORDER BY` clause. -/
def keyText (options : Options) (key : String × SortDirection) : String :=
  Cypher.member options.rootAlias key.1 ++ " " ++ key.2.keyword

/-- The `ORDER BY` clause of an order of root records; without one they come in
descending order of identity. -/
def clause (options : Options) : Option SortOrder → String
  | none => "ORDER BY " ++ keyText options (options.idKey, .descending)
  | some (.identity direction) => "ORDER BY " ++ keyText options (options.idKey, direction)
  | some (.properties keys) =>
    "ORDER BY " ++ ", ".intercalate (keys.map (keyText options))

end SortOrder
end GraphSearch
