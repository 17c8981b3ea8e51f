import GraphSearch.Json.Basic
import GraphSearch.Double.Shortest
/-!
# Writing JSON

Two forms of the same text.  `Json.compact` puts nothing between the tokens and is
what messages, literals and re-serialized values are made of; `Json.pretty` puts every
item on a line of its own, indented by two spaces a level, and writes an empty
array or object without a line break.

In a string only the quotation mark, the backslash and the characters below U+0020
are escaped; everything else, U+007F included, stands for itself.
-/

namespace GraphSearch

/-! ## 1.  Strings and numbers -/

/-- The hexadecimal digit of a number below sixteen, in lower case. -/
def hexDigit (n : Nat) : Char := (Nat.digitChar n)

/-- A character as it stands between the quotation marks of a JSON string. -/
def Json.escape (c : Char) : String :=
  match c with
  | '"' => "\\\""
  | '\\' => "\\\\"
  | '\x08' => "\\b"
  | '\x0c' => "\\f"
  | '\n' => "\\n"
  | '\r' => "\\r"
  | '\t' => "\\t"
  | c =>
    if c.toNat < 0x20 then
      "\\u00" ++ String.ofList [hexDigit (c.toNat / 16), hexDigit (c.toNat % 16)]
    else c.toString

/-- The JSON string literal of a text. -/
def Json.quote (s : String) : String :=
  "\"" ++ String.join (s.toList.map Json.escape) ++ "\""

/-- The text of a number. -/
def Number.toText : Number → String
  | .int i => toString i
  | .float x => x.toText

/-! ## 2.  The compact form -/

namespace Json

mutual

/-- The compact text of a value. -/
def compact : Json → String
  | .null => "null"
  | .bool b => if b then "true" else "false"
  | .number n => n.toText
  | .string s => quote s
  | .array items => "[" ++ ",".intercalate (compactItems items) ++ "]"
  | .object fields => "\x7b" ++ ",".intercalate (compactFields fields) ++ "\x7d"

/-- The compact texts of a list of items. -/
def compactItems : List Json → List String
  | [] => []
  | item :: items => compact item :: compactItems items

/-- The compact texts of a list of entries. -/
def compactFields : List (String × Json) → List String
  | [] => []
  | (key, value) :: fields => (quote key ++ ":" ++ compact value) :: compactFields fields

end

/-! ## 3.  The pretty form -/

/-- A line break and the indentation of a level. -/
def lineBreak (level : Nat) : String := "\n".pushn ' ' (2 * level)

/-- Items between brackets, each on a line of its own inside `level`. -/
def block (opening closing : String) (level : Nat) (items : List String) : String :=
  if items.isEmpty then opening ++ closing else
    opening ++ lineBreak (level + 1) ++ ("," ++ lineBreak (level + 1)).intercalate items
      ++ lineBreak level ++ closing

mutual

/-- The pretty text of a value that stands inside `level`. -/
def prettyAt (level : Nat) : Json → String
  | .null => "null"
  | .bool b => if b then "true" else "false"
  | .number n => n.toText
  | .string s => quote s
  | .array items => block "[" "]" level (prettyItems (level + 1) items)
  | .object fields => block "\x7b" "\x7d" level (prettyFields (level + 1) fields)

/-- The pretty texts of a list of items. -/
def prettyItems (level : Nat) : List Json → List String
  | [] => []
  | item :: items => prettyAt level item :: prettyItems level items

/-- The pretty texts of a list of entries. -/
def prettyFields (level : Nat) : List (String × Json) → List String
  | [] => []
  | (key, value) :: fields =>
    (quote key ++ ": " ++ prettyAt level value) :: prettyFields level fields

end

/-- The pretty text of a value. -/
def pretty (value : Json) : String := prettyAt 0 value

end Json
end GraphSearch
