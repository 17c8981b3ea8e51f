/-!
# Names in query text

A property key, a label and a relation type are arbitrary texts.  A *plain* name, an
ASCII identifier, may stand as it is; any other is written between backticks, a
backtick inside it twice.  Labels and relation types are always written that way.

The empty name is not plain.
-/

namespace GraphSearch.Cypher

/-- A character a plain name may start with. -/
def isNameStart (c : Char) : Bool :=
  ('a' ≤ c && c ≤ 'z') || ('A' ≤ c && c ≤ 'Z') || c = '_'

/-- A character a plain name may go on with. -/
def isNamePart (c : Char) : Bool := isNameStart c || ('0' ≤ c && c ≤ '9')

/-- A name that needs no quoting, as characters. -/
def isPlainChars : List Char → Bool
  | [] => false
  | c :: rest => isNameStart c && rest.all isNamePart

/-- A name that needs no quoting. -/
def isPlain (raw : String) : Bool := isPlainChars raw.toList

/-- The characters of a quoted name between its backticks. -/
def doubleBackticks : List Char → List Char
  | [] => []
  | '`' :: rest => '`' :: '`' :: doubleBackticks rest
  | c :: rest => c :: doubleBackticks rest

/-- A name between backticks. -/
def quoted (raw : String) : String :=
  String.ofList ('`' :: (doubleBackticks raw.toList ++ ['`']))

/-- A name, quoted unless it is plain. -/
def name (raw : String) : String := if isPlain raw then raw else quoted raw

/-- The property `key` of `base`. -/
def member (base key : String) : String := base ++ "." ++ name key

end GraphSearch.Cypher
