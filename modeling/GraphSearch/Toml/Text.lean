import GraphSearch.Json.Text
/-!
# TOML strings

There are four kinds of strings: basic ones, in which a backslash starts an escape,
and literal ones, in which it does not, each on one line or on many.  A string on many
lines leaves out a line break directly after its opening quotes and keeps all others as
they are written, and ends at the first three quotes, up to two more of which belong to
its text.

Functions that take something off a text return it with what is left, or nothing when
the text does not start with it.
-/

namespace GraphSearch.Toml

/-! ## 1.  Characters and line ends -/

/-- A character that may stand in a string or comment: no control character but tab. -/
def isTextChar (c : Char) : Bool := c = '\t' || (0x20 ≤ c.toNat && c.toNat ≠ 0x7f)

/-- Blanks within a line. -/
def isBlank (c : Char) : Bool := c = ' ' || c = '\t'

/-- The text without a line break at its start. -/
def dropLineBreak : List Char → List Char
  | '\n' :: text => text
  | '\r' :: '\n' :: text => text
  | text => text

/-- Starts with blanks up to the end of the line. -/
def blankToLineEnd : List Char → Bool
  | '\n' :: _ => true
  | '\r' :: '\n' :: _ => true
  | c :: text => isBlank c && blankToLineEnd text
  | [] => false

/-- The end of a string on many lines, of whose quotes the last three have been taken
already: up to two before them are text. -/
def closeQuotes (quote : Char) (text : List Char) : Option (List Char × List Char) :=
  let extra := text.takeWhile (· = quote)
  if extra.length ≤ 2 then some (extra, text.drop extra.length) else none

/-- Puts a character before the text taken. -/
def push (c : Char) (taken : Option (List Char × List Char)) :
    Option (List Char × List Char) :=
  taken.map fun result => (c :: result.1, result.2)

/-! ## 2.  Literal strings -/

/-- Takes the rest of a literal string on one line. -/
def takeLiteral : List Char → Option (List Char × List Char)
  | [] => none
  | '\'' :: text => some ([], text)
  | c :: text => if isTextChar c then push c (takeLiteral text) else none

/-- Takes the rest of a literal string on many lines. -/
def takeLiteralLines : List Char → Option (List Char × List Char)
  | [] => none
  | '\'' :: '\'' :: '\'' :: text => closeQuotes '\'' text
  | '\r' :: '\n' :: text => push '\r' (push '\n' (takeLiteralLines text))
  | c :: text =>
    if isTextChar c || c = '\n' then push c (takeLiteralLines text) else none

/-! ## 3.  Basic strings -/

/-- The character an escape of one letter stands for. -/
def escaped? : Char → Option Char
  | '"' => some '"'
  | '\\' => some '\\'
  | 'b' => some '\x08'
  | 'e' => some '\x1b'
  | 'f' => some '\x0c'
  | 'n' => some '\n'
  | 'r' => some '\r'
  | 't' => some '\t'
  | _ => none

/-- The character with the code point given by hexadecimal digits. -/
def codePoint? (digits : List Char) : Option Char := do
  let values ← digits.mapM Json.hexValue?
  let n := values.foldl (fun n v => 16 * n + v) 0
  if n < 0xD800 ∨ (0xE000 ≤ n ∧ n < 0x110000) then some (Char.ofNat n) else none

/-- Takes the rest of a basic string, on one line or on many.  A backslash at the end of
a line makes blanks and line breaks be passed over until something else comes. -/
def takeBasic (lines skipping : Bool) : List Char → Option (List Char × List Char)
  | [] => none
  | '"' :: text =>
    if ¬ lines then some ([], text)
    else match text with
      | '"' :: '"' :: rest => closeQuotes '"' rest
      | _ => push '"' (takeBasic lines false text)
  | '\\' :: 'x' :: a :: b :: text =>
    (codePoint? [a, b]).bind fun c => push c (takeBasic lines false text)
  | '\\' :: 'u' :: a :: b :: c :: d :: text =>
    (codePoint? [a, b, c, d]).bind fun c => push c (takeBasic lines false text)
  | '\\' :: 'U' :: a :: b :: c :: d :: e :: f :: g :: h :: text =>
    (codePoint? [a, b, c, d, e, f, g, h]).bind fun c => push c (takeBasic lines false text)
  | '\\' :: c :: text =>
    match escaped? c with
    | some c => push c (takeBasic lines false text)
    | none => if lines && blankToLineEnd (c :: text) then takeBasic lines true text else none
  | '\r' :: '\n' :: text =>
    if ¬ lines then none
    else if skipping then takeBasic lines true text
    else push '\r' (push '\n' (takeBasic lines false text))
  | c :: text =>
    if skipping && (isBlank c || c = '\n') then takeBasic lines true text
    else if isTextChar c || (lines && c = '\n') then push c (takeBasic lines false text)
    else none

/-! ## 4.  Strings -/

/-- Takes a string on one line. -/
def takeLineString : List Char → Option (List Char × List Char)
  | '"' :: text => takeBasic false false text
  | '\'' :: text => takeLiteral text
  | _ => none

/-- Takes a string of any kind. -/
def takeString (text : List Char) : Option (String × List Char) :=
  let taken := match text with
    | '"' :: '"' :: '"' :: text => takeBasic true false (dropLineBreak text)
    | '\'' :: '\'' :: '\'' :: text => takeLiteralLines (dropLineBreak text)
    | text => takeLineString text
  taken.map fun result => (String.ofList result.1, result.2)

end GraphSearch.Toml
