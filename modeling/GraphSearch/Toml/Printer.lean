import GraphSearch.Unicode.Printable
/-!
# Writing TOML strings

A string is written in the plainest way that shows it as it is: in double quotes if
nothing in it needs an escape; else as a literal string, if it has no single quote; else
on many lines.  Only control characters, or too many quotes of both kinds, make escapes
necessary.
-/

namespace GraphSearch.Toml

/-! ## 1.  What a text contains -/

/-- The length of the longest run of a character. -/
def longestRun (c : Char) : (current : Nat) → List Char → Nat
  | current, [] => current
  | current, d :: text =>
    if d = c then longestRun c (current + 1) text
    else max current (longestRun c 0 text)

/-- A control character that cannot stand for itself. -/
def isControl (c : Char) : Bool :=
  (c.toNat < 0x20 && c ≠ '\t' && c ≠ '\n') || c.toNat = 0x7f

/-! ## 2.  Escapes -/

/-- Four upper-case hexadecimal digits. -/
def hexFour (n : Nat) : String :=
  let digits := (Nat.toDigits 16 n).map Char.toUpper
  "".pushn '0' (4 - digits.length) ++ String.ofList digits

/-- A character of a basic string on one line or on many; `quotes` double quotes stand
directly before it. -/
def escapeBasic (lines : Bool) (quotes : Nat) (c : Char) : String :=
  match c with
  | '"' => if (if lines then 2 else 0) ≤ quotes then "\\\"" else "\""
  | '\\' => "\\\\"
  | '\x08' => "\\b"
  | '\t' => "\\t"
  | '\n' => if lines then "\n" else "\\n"
  | '\x0c' => "\\f"
  | '\r' => "\\r"
  | c => if c.toNat < 0x20 ∨ c.toNat = 0x7f then "\\u" ++ hexFour c.toNat else c.toString

/-- The characters of a text as they stand between the quotes of a basic string.  An
escaped quote starts the count of quotes anew. -/
def basicPieces (lines : Bool) : (quotes : Nat) → List Char → List String
  | _, [] => []
  | quotes, c :: text =>
    let isOpen := c = '"' ∧ quotes < (if lines then 2 else 0)
    escapeBasic lines quotes c :: basicPieces lines (if isOpen then quotes + 1 else 0) text

/-- The text between the quotes of a basic string. -/
def basicBody (lines : Bool) (text : List Char) : String :=
  String.join (basicPieces lines 0 text)

/-! ## 3.  Strings -/

/-- A line break after the opening quotes, where the text has one. -/
def leadingBreak (text : List Char) : String := if '\n' ∈ text then "\n" else ""

/-- A basic string. -/
def basic (text : List Char) : String := "\"" ++ basicBody false text ++ "\""

/-- A literal string. -/
def literal (text : List Char) : String := "'" ++ String.ofList text ++ "'"

/-- A basic string on many lines. -/
def basicLines (text : List Char) : String :=
  "\"\"\"" ++ leadingBreak text ++ basicBody true text ++ "\"\"\""

/-- A literal string on many lines. -/
def literalLines (text : List Char) : String :=
  "'''" ++ leadingBreak text ++ String.ofList text ++ "'''"

/-- A text as a string, in the plainest way there is. -/
def quote (value : String) : String :=
  let text := value.toList
  let plain := !text.any isControl
  let singles := longestRun '\'' 0 text
  let doubles := longestRun '"' 0 text
  if plain && !text.contains '\\' && doubles = 0 && !text.contains '\n' then basic text
  else if plain && singles = 0 && !text.contains '\n' then literal text
  else if plain && !text.contains '\\' && doubles ≤ 2 then basicLines text
  else if plain && singles ≤ 2 then literalLines text
  else if text.contains '\n' then basicLines text
  else basic text

end GraphSearch.Toml
