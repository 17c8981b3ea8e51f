import GraphSearch.Json.Fault
import GraphSearch.Taken
/-!
# Readers of JSON

A reader takes a value off the front of what is left of a text, or reports a fault.
Between tokens there may be blanks.
-/

namespace GraphSearch.Json

/-- A reader of values of type `α`. -/
abbrev Reader (α : Type) := (text : List Char) → Except Fault (Taken α text)

/-- Stops at `left` without having looked at it. -/
def failAt {α : Type} (cause : SyntaxCause) (left : List Char) : Except Fault α :=
  .error ⟨cause, left, 0⟩

/-- Stops at `left`, whose next byte gave the cause; at the end there is none. -/
def failOn {α : Type} (cause : SyntaxCause) (left : List Char) : Except Fault α :=
  .error ⟨cause, left, if left.isEmpty then 0 else 1⟩

/-- Blanks between tokens: space, tab, line feed and carriage return. -/
def isBlank (c : Char) : Bool := c = ' ' || c = '\t' || c = '\n' || c = '\r'

/-- The text from its first token on. -/
def skipBlanks (text : List Char) : List Char := text.dropWhile isBlank

theorem length_skipBlanks_le (text : List Char) :
    (skipBlanks text).length ≤ text.length :=
  (List.dropWhile_sublist isBlank).length_le

end GraphSearch.Json
