import GraphSearch.Json.Reader
import GraphSearch.Rejection
/-!
# Requests

A search request says which records are wanted, how they are ordered, which page of
them, and what is to be computed for each.  All of that is optional; a field that a
request does not know is refused.  `toJson` leaves out what is absent or empty.
-/

namespace GraphSearch

/-- A search request. -/
structure Request where
  criteria : Option Json := none
  labels : List String := []
  order : Option Json := none
  skip : Option Nat := none
  limit : Option Nat := none
  aggregate : Option Json := none
  deriving DecidableEq, Repr, Inhabited

namespace Request

/-- The field names, in order. -/
def fieldNames : List String := ["where", "labels", "orderBy", "skip", "limit", "aggregate"]

/-- Writes one field. -/
def write (field : String) (value : Json) (request : Request) :
    Except Json.ShapeFault Request :=
  match field with
  | "where" => return { request with criteria := ← Json.asOptional Json.asAny value }
  | "labels" => return { request with labels := ← Json.asStrings value }
  | "orderBy" => return { request with order := ← Json.asOptional Json.asAny value }
  | "skip" => return { request with skip := ← Json.asOptional (Json.asCount 64) value }
  | "limit" => return { request with limit := ← Json.asOptional (Json.asCount 64) value }
  | "aggregate" => return { request with aggregate := ← Json.asOptional Json.asAny value }
  | other => throw (.unknownField other fieldNames)

/-- Reads a request from an object, or from an array of its fields in order. -/
def ofJson (value : Json) : Except Rejection Request :=
  let result := match value with
    | .object fields => Json.writeFields write fields {}
    | .array items => Json.writeItems write fieldNames items {}
    | other => .error (.mismatch other "struct SearchQuery")
  result.mapError fun fault => .invalidRequest (.shape fault) value

/-- Reads a request from text. -/
def parse (text : String) : Except Rejection Request :=
  match Json.parse text with
  | .ok value => ofJson value
  | .error error => .error (.invalidRequest (.unreadable error) (.string text))

/-- The request as an object. -/
def toJson (request : Request) : Json :=
  let optional (field : String) (value : Option Json) : List (String × Json) :=
    match value with
    | some value => [(field, value)]
    | none => []
  let count (n : Nat) : Json := .number (.int n)
  .object (
    optional "where" request.criteria
      ++ (if request.labels.isEmpty then []
          else [("labels", .array (request.labels.map Json.string))])
      ++ optional "orderBy" request.order
      ++ optional "skip" (request.skip.map count)
      ++ optional "limit" (request.limit.map count)
      ++ optional "aggregate" request.aggregate)

end Request
end GraphSearch
