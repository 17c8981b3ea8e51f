import GraphSearch.Unicode.Printable.Table
import GraphSearch.Unicode.Ranges
/-!
# Quoting a text for a message

A message that quotes a text spells out what would not show: line breaks and tabs by
their letter, every other hidden character by its code point in braces.
-/

namespace GraphSearch.Unicode

/-- The digits of a code point in lower-case hexadecimal. -/
def hexDigits (n : Nat) : String := String.ofList (Nat.toDigits 16 n)

/-- A character as a quoted text in a message shows it. -/
def visible (c : Char) : String :=
  match c with
  | '\x00' => "\\0"
  | '\t' => "\\t"
  | '\r' => "\\r"
  | '\n' => "\\n"
  | '\\' => "\\\\"
  | '"' => "\\\""
  | c =>
    if c.toNat < 0x20 ∨ c.toNat = 0x7f ∨ inRanges hiddenRanges c then
      "\\u\x7b" ++ hexDigits c.toNat ++ "\x7d"
    else c.toString

/-- A text in quotation marks, with everything in it visible. -/
def quoteVisible (text : String) : String :=
  "\"" ++ String.join (text.toList.map visible) ++ "\""

end GraphSearch.Unicode
