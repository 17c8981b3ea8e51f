import GraphSearch.Json.Numeral
import GraphSearch.Json.Text
import GraphSearch.Table
/-!
# Reading JSON

`Json.parse` reads a text that is one JSON value with blanks around it.  Arrays and
objects may be nested `maxDepth` deep; the reader of a nested value is handed to the
readers of its container, so that the recursion is on the depth that is still allowed,
and the loops over items and entries end because every item takes at least one
character.

A key that an object repeats keeps its first place and takes its last value.
-/

namespace GraphSearch.Json

/-! ## 1.  Words and containers -/

/-- Reads the letters of `true`, `false` or `null` after the first. -/
def readWord (value : Json) : (word : List Char) → Reader Json
  | [], _ => failAt .expectedWord []
  | _ :: _, [] => failAt .eofValue []
  | [w], c :: rest =>
    if c = w then .ok ⟨value, rest, by simp⟩ else failOn .expectedWord (c :: rest)
  | w :: word, c :: rest =>
    if c = w then return (← readWord value word rest).past c
    else failOn .expectedWord (c :: rest)

/-- Reads what follows an item of an array, up to and including the closing bracket. -/
def readMoreItems (item : Reader Json) (text : List Char) :
    Except Fault (Taken (List Json) text) :=
  match h : skipBlanks text with
  | [] => failOn .eofList []
  | ']' :: rest => .ok ⟨[], rest, by
      have := length_skipBlanks_le text; simp only [h, List.length_cons] at this; omega⟩
  | ',' :: after =>
    match skipBlanks after with
    | [] => failOn .eofValue []
    | ']' :: rest => failOn .trailingComma (']' :: rest)
    | _ :: _ => do
      let head ← item after
      let tail ← readMoreItems item head.rest
      return (tail.map (head.value :: ·)).widen (by
        have := length_skipBlanks_le text
        have := head.shorter
        simp only [h, List.length_cons] at *; omega)
  | c :: rest => failOn .expectedListEnd (c :: rest)
termination_by text.length
decreasing_by
  have := length_skipBlanks_le text
  have := head.shorter
  simp only [h, List.length_cons] at *; omega

/-- Reads an array from the character after its opening bracket. -/
def readItems (item : Reader Json) : Reader (List Json) := fun text =>
  match h : skipBlanks text with
  | [] => failOn .eofList []
  | ']' :: rest => .ok ⟨[], rest, by
      have := length_skipBlanks_le text; simp only [h, List.length_cons] at this; omega⟩
  | _ :: _ => do
    let head ← item text
    let tail ← readMoreItems item head.rest
    return (tail.map (head.value :: ·)).widen (Nat.le_of_lt head.shorter)

/-- Reads an entry of an object from the first character of its key on. -/
def readEntry (item : Reader Json) : Reader (String × Json)
  | '"' :: text => do
    let key ← readText text
    match h : skipBlanks key.rest with
    | [] => failOn .eofObject []
    | ':' :: after => do
      let value ← item after
      return (value.map (key.value, ·)).widen (by
        have := length_skipBlanks_le key.rest
        have := key.shorter
        simp only [h, List.length_cons] at *; omega)
    | c :: rest => failOn .expectedColon (c :: rest)
  | text => failOn .keyNotString text

/-- Reads what follows an entry of an object, up to and including the closing brace,
and returns `fields` with the further entries written into it. -/
def readMoreEntries (item : Reader Json) (fields : List (String × Json))
    (text : List Char) : Except Fault (Taken (List (String × Json)) text) :=
  match h : skipBlanks text with
  | [] => failOn .eofObject []
  | '\x7d' :: rest => .ok ⟨fields, rest, by
      have := length_skipBlanks_le text; simp only [h, List.length_cons] at this; omega⟩
  | ',' :: after =>
    match h' : skipBlanks after with
    | [] => failOn .eofValue []
    | '\x7d' :: rest => failOn .trailingComma ('\x7d' :: rest)
    | start => do
      let head ← readEntry item start
      let tail ← readMoreEntries item (Table.insert head.value.1 head.value.2 fields)
        head.rest
      return tail.widen (by
        have := length_skipBlanks_le text
        have := length_skipBlanks_le after
        have := head.shorter
        simp only [h, h', List.length_cons] at *; omega)
  | c :: rest => failOn .expectedObjectEnd (c :: rest)
termination_by text.length
decreasing_by
  have := length_skipBlanks_le text
  have := length_skipBlanks_le after
  have := head.shorter
  simp only [h, h', List.length_cons] at *; omega

/-- Reads an object from the character after its opening brace. -/
def readEntries (item : Reader Json) : Reader (List (String × Json)) := fun text =>
  match h : skipBlanks text with
  | [] => failOn .eofObject []
  | '\x7d' :: rest => .ok ⟨[], rest, by
      have := length_skipBlanks_le text; simp only [h, List.length_cons] at this; omega⟩
  | start => do
    let head ← readEntry item start
    let tail ← readMoreEntries item [head.value] head.rest
    return tail.widen (by
      have := length_skipBlanks_le text
      have := head.shorter
      simp only [h] at *; omega)

/-! ## 2.  Values -/

/-- Reads a numeral, sign included. -/
def readNumber : Reader Json := fun text =>
  match h : readNumeral text with
  | .ok (value, rest) => .ok ⟨.number value, rest, readNumeral_lt h⟩
  | .error fault => .error fault

/-- Reads a value that starts at the first character, when arrays and objects are read
by `inner`; none may start here when that is absent. -/
def readToken (inner : Option (Reader Json)) : Reader Json
  | [] => failOn .eofValue []
  | 'n' :: text => return (← readWord .null ['u', 'l', 'l'] text).past 'n'
  | 't' :: text => return (← readWord (.bool true) ['r', 'u', 'e'] text).past 't'
  | 'f' :: text => return (← readWord (.bool false) ['a', 'l', 's', 'e'] text).past 'f'
  | '"' :: text => return ((← readText text).map Json.string).past '"'
  | '[' :: text => match inner with
    | some item => return ((← readItems item text).map Json.array).past '['
    | none => failOn .tooDeep ('[' :: text)
  | '\x7b' :: text => match inner with
    | some item => return ((← readEntries item text).map Json.object).past '\x7b'
    | none => failOn .tooDeep ('\x7b' :: text)
  | c :: text =>
    if c = '-' ∨ isDigit c then readNumber (c :: text)
    else failOn .expectedValue (c :: text)

/-- Reads a value, in which arrays and objects are nested at most `depth` deep, after
any blanks. -/
def readValue : (depth : Nat) → Reader Json
  | 0, text => return (← readToken none (skipBlanks text)).widen (length_skipBlanks_le text)
  | depth + 1, text =>
    return (← readToken (some (readValue depth)) (skipBlanks text)).widen
      (length_skipBlanks_le text)

/-- How deep arrays and objects may be nested. -/
def maxDepth : Nat := 127

/-- Reads one value and the blanks after it, up to the end. -/
def readDocument (text : List Char) : Except Fault Json := do
  let taken ← readValue maxDepth text
  let rest := skipBlanks taken.rest
  if rest.isEmpty then return taken.value else failOn .trailingCharacters rest

/-- The value a text denotes. -/
def parse (text : String) : Except SyntaxError Json :=
  (readDocument text.toList).mapError (SyntaxError.locate text.toList)

end GraphSearch.Json
