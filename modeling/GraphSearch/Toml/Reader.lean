import GraphSearch.Taken
import GraphSearch.Toml.Entry
import GraphSearch.Toml.Scalar
import GraphSearch.Toml.Text
/-!
# Reading TOML

A document is read into a list of statements first, one to each line that is not blank,
and the statements then build its tables (`Toml.parse`).  Arrays and inline tables may
be nested `maxDepth` deep and may reach over lines, but a key stands on one line and has
at most `maxParts` parts.
-/

namespace GraphSearch.Toml

/-! ## 1.  Lines -/

/-- The text without blanks at its start. -/
def skipBlanks (text : List Char) : List Char := text.dropWhile isBlank

/-- Passes over blanks, line breaks and comments; `comment` is set inside a comment. -/
def skipLinesFrom (comment : Bool) : List Char → Option (List Char)
  | [] => some []
  | '\n' :: text => skipLinesFrom false text
  | '\r' :: '\n' :: text => skipLinesFrom false text
  | c :: text =>
    if comment then if isTextChar c then skipLinesFrom true text else none
    else if isBlank c then skipLinesFrom false text
    else if c = '#' then skipLinesFrom true text
    else some (c :: text)

/-- Passes over blanks, line breaks and comments. -/
def skipLines (text : List Char) : Option (List Char) := skipLinesFrom false text

/-- Passes over the rest of a line, which must be blank or a comment; `comment` is set
inside a comment. -/
def endLineFrom (comment : Bool) : List Char → Option (List Char)
  | [] => some []
  | '\n' :: text => some text
  | '\r' :: '\n' :: text => some text
  | c :: text =>
    if comment then if isTextChar c then endLineFrom true text else none
    else if isBlank c then endLineFrom false text
    else if c = '#' then endLineFrom true text
    else none

/-- Passes over the rest of a line, which must be blank or a comment. -/
def endLine (text : List Char) : Option (List Char) := endLineFrom false text

/-! ## 2.  Keys -/

/-- A character of a key without quotes. -/
def isKeyChar (c : Char) : Bool :=
  isDigit c || ('a' ≤ c && c ≤ 'z') || ('A' ≤ c && c ≤ 'Z') || c = '_' || c = '-'

/-- Takes one part of a key. -/
def takeKey (text : List Char) : Option (String × List Char) :=
  match takeLineString text with
  | some (key, rest) => some (String.ofList key, rest)
  | none =>
    let key := text.takeWhile isKeyChar
    if key.isEmpty then none else some (String.ofList key, text.dropWhile isKeyChar)

/-- Takes the parts of a key and the blanks around them. -/
def takeParts (text : List Char) : Option (List String × List Char) := do
  let (key, rest) ← takeKey (skipBlanks text)
  match skipBlanks rest with
  | '.' :: rest =>
    if _ : rest.length < text.length then
      let (path, rest) ← takeParts rest
      return (key :: path, rest)
    else none
  | rest => return ([key], rest)
termination_by text.length

/-- The greatest number of parts of a key. -/
def maxParts : Nat := 80

/-- Takes a key of one or more parts and the blanks around it. -/
def takePath (text : List Char) : Option (List String × List Char) :=
  (takeParts text).filter fun taken => taken.1.length ≤ maxParts

/-! ## 3.  Values -/

/-- Takes the items of an array from the character after its opening bracket on. -/
def takeItems (item : List Char → Option (Toml × List Char)) (text : List Char) :
    Option (List Toml × List Char) := do
  match ← skipLines text with
  | ']' :: rest => return ([], rest)
  | start =>
    let (value, rest) ← item start
    match ← skipLines rest with
    | ']' :: rest => return ([value], rest)
    | ',' :: rest =>
      if _ : rest.length < text.length then
        let (values, rest) ← takeItems item rest
        return (value :: values, rest)
      else none
    | _ => none
termination_by text.length

/-- Takes the entries of an inline table from the character after its opening brace on,
and adds them to those already there.  Lines may end anywhere but inside a key. -/
def takeFields (item : List Char → Option (Toml × List Char)) (fields : Fields)
    (text : List Char) : Option (Fields × List Char) := do
  match ← skipLines text with
  | '\x7d' :: rest => return (fields, rest)
  | start =>
    let (path, rest) ← takePath start
    let '=' :: rest ← skipLines rest | none
    let (value, rest) ← item (← skipLines rest)
    let fields ← assign value path fields
    match ← skipLines rest with
    | '\x7d' :: rest => return (fields, rest)
    | ',' :: rest =>
      if _ : rest.length < text.length then takeFields item fields rest else none
    | _ => none
termination_by text.length

/-- Takes a value, in which arrays and inline tables are nested at most `depth` deep. -/
def takeValue : (depth : Nat) → List Char → Option (Toml × List Char)
  | _, '"' :: text => (takeString ('"' :: text)).map fun taken => (.string taken.1, taken.2)
  | _, '\'' :: text => (takeString ('\'' :: text)).map fun taken => (.string taken.1, taken.2)
  | 0, text => takeScalar text
  | depth + 1, '[' :: text =>
    (takeItems (takeValue depth) text).map fun taken => (.array taken.1, taken.2)
  | depth + 1, '\x7b' :: text =>
    (takeFields (takeValue depth) [] text).map fun taken =>
      (.table (fieldsToToml taken.1), taken.2)
  | _ + 1, text => takeScalar text

/-- How deep arrays and inline tables may be nested. -/
def maxDepth : Nat := 80

/-! ## 4.  Documents -/

/-- What a line says. -/
inductive TomlLine where
  | table (path : List String)
  | element (path : List String)
  | assignment (path : List String) (value : Toml)
  deriving Repr, Inhabited

/-- Takes a line from its first character on. -/
def takeLine : List Char → Option (TomlLine × List Char)
  | '[' :: '[' :: text => do
    let (path, rest) ← takePath text
    let ']' :: ']' :: rest := rest | none
    return (.element path, ← endLine rest)
  | '[' :: text => do
    let (path, rest) ← takePath text
    let ']' :: rest := rest | none
    return (.table path, ← endLine rest)
  | text => do
    let (path, rest) ← takePath text
    let '=' :: rest := rest | none
    let (value, rest) ← takeValue maxDepth (skipBlanks rest)
    return (.assignment path value, ← endLine rest)

/-- All lines of a text that are not blank. -/
def takeLines (text : List Char) : Option (List TomlLine) := do
  match ← skipLines text with
  | [] => return []
  | start =>
    let (line, rest) ← takeLine start
    if _ : rest.length < text.length then
      return line :: (← takeLines rest)
    else none
termination_by text.length

/-- Adds a line to a document; `current` is the path of the last header. -/
def addLine (current : List String) (fields : Fields) :
    TomlLine → Option (List String × Fields)
  | .table path => (openTable path fields).map (path, ·)
  | .element path => (openElement path fields).map (path, ·)
  | .assignment path value => (within (assign value path) current fields).map (current, ·)

/-- Builds a document from its lines. -/
def build (current : List String) (fields : Fields) : List TomlLine → Option Fields
  | [] => some fields
  | line :: lines => do
    let (current, fields) ← addLine current fields line
    build current fields lines

/-- The text without a byte order mark at its start. -/
def dropMark : List Char → List Char
  | '\ufeff' :: text => text
  | text => text

/-- The table a text denotes. -/
def parse (text : String) : Option (List (String × Toml)) := do
  let lines ← takeLines (dropMark text.toList)
  return fieldsToToml (← build [] [] lines)

end GraphSearch.Toml
