import GraphSearch.Cypher.Instant
import GraphSearch.Json.Printer
/-!
# Literals

A value is written as its compact JSON text, with two differences: a date-time becomes
a call of `datetime`, and an array becomes the list of the literals of its items, so
that date-times inside it are calls too.  Inside an object nothing is rewritten.
-/

namespace GraphSearch.Cypher

/-- The string literal of a text. -/
def string (raw : String) : String := Json.quote raw

/-- A list literal of items that are already written. -/
def listOf (items : List String) : String := "[" ++ ",".intercalate items ++ "]"

mutual

/-- The literal of a value. -/
def literal : Json → String
  | .string s => if isInstant s then "datetime(" ++ string s ++ ")" else string s
  | .array items => listOf (literals items)
  | .null => Json.compact .null
  | .bool b => Json.compact (.bool b)
  | .number n => Json.compact (.number n)
  | .object fields => Json.compact (.object fields)

/-- The literals of a list of values. -/
def literals : List Json → List String
  | [] => []
  | item :: items => literal item :: literals items

end

/-- The list literal of a list of values. -/
def list (items : List Json) : String := listOf (literals items)

end GraphSearch.Cypher
