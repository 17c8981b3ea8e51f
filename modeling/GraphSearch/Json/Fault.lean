/-!
# Where and why reading stops

A reader works on the list of characters that are still to be read, so it knows where
it stands without counting.  When it stops it reports a `Fault`: the cause, what is
left, and how many bytes of that it had already looked at.  `SyntaxError.locate` turns
this into a line and a column once, from the whole text.

Lines are counted from 1 and columns in bytes of UTF-8 since the last line feed, the
byte that was looked at included, so a fault at the end of the text names the number
of bytes on its line.
-/

namespace GraphSearch.Json

/-- Why a text is not a JSON value. -/
inductive SyntaxCause where
  | eofValue
  | eofList
  | eofObject
  | eofString
  | expectedValue
  | expectedWord
  | expectedColon
  | expectedListEnd
  | expectedObjectEnd
  | keyNotString
  | trailingComma
  | trailingCharacters
  | invalidNumber
  | numberOutOfRange
  | invalidEscape
  | unpairedSurrogate
  | unfinishedSurrogate
  | controlCharacter
  | tooDeep
  deriving DecidableEq, Repr, Inhabited

/-- The wording of a cause. -/
def SyntaxCause.message : SyntaxCause → String
  | .eofValue => "EOF while parsing a value"
  | .eofList => "EOF while parsing a list"
  | .eofObject => "EOF while parsing an object"
  | .eofString => "EOF while parsing a string"
  | .expectedValue => "expected value"
  | .expectedWord => "expected ident"
  | .expectedColon => "expected `:`"
  | .expectedListEnd => "expected `,` or `]`"
  | .expectedObjectEnd => "expected `,` or `\x7d`"
  | .keyNotString => "key must be a string"
  | .trailingComma => "trailing comma"
  | .trailingCharacters => "trailing characters"
  | .invalidNumber => "invalid number"
  | .numberOutOfRange => "number out of range"
  | .invalidEscape => "invalid escape"
  | .unpairedSurrogate => "lone leading surrogate in hex escape"
  | .unfinishedSurrogate => "unexpected end of hex escape"
  | .controlCharacter => "control character (\\u0000-\\u001F) found while parsing a string"
  | .tooDeep => "recursion limit exceeded"

/-- A reader's report: `left` had not been read when it stopped, and `seen` bytes of it
had been looked at. -/
structure Fault where
  cause : SyntaxCause
  left : List Char
  seen : Nat
  deriving DecidableEq, Repr, Inhabited

/-- A cause with its place in the text. -/
structure SyntaxError where
  cause : SyntaxCause
  line : Nat
  column : Nat
  deriving DecidableEq, Repr, Inhabited

/-- The wording of a syntax error. -/
def SyntaxError.message (e : SyntaxError) : String :=
  e.cause.message ++ " at line " ++ toString e.line ++ " column " ++ toString e.column

/-- The number of bytes of a text in UTF-8. -/
def byteCount (text : List Char) : Nat :=
  text.foldr (fun c count => c.utf8Size + count) 0

/-- The line and column after the first `bytes` bytes of a text that starts at the line
and column given. -/
def advance (line column : Nat) : List Char → Nat → Nat × Nat
  | _, 0 => (line, column)
  | [], _ => (line, column)
  | c :: text, bytes + 1 =>
    if bytes + 1 < c.utf8Size then (line, column + (bytes + 1))
    else if c = '\n' then advance (line + 1) 0 text (bytes + 1 - c.utf8Size)
    else advance line (column + c.utf8Size) text (bytes + 1 - c.utf8Size)

/-- The place of a fault in the text it arose in. -/
def SyntaxError.locate (text : List Char) (fault : Fault) : SyntaxError :=
  let read := byteCount text - byteCount fault.left + fault.seen
  let (line, column) := advance 1 0 text read
  ⟨fault.cause, line, column⟩

end GraphSearch.Json
