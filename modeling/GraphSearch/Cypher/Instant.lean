import GraphSearch.Unicode.Digit
/-!
# Date-times

Which texts are date-times: a date, the letter `T`, hours and minutes, then possibly
seconds with a fraction of one to nine digits, then possibly an offset, `Z` or signed
hours and minutes.  A digit is a decimal digit of any script, and nothing may follow,
not even a line feed.

Each part is a function that takes it off the front of a text and returns the rest, so
a text is a date-time when all parts together leave nothing (`isInstant`).
-/

namespace GraphSearch.Cypher

open Unicode

/-- Takes `count` decimal digits off a text. -/
def takeDigits : (count : Nat) → List Char → Option (List Char)
  | 0, text => some text
  | _ + 1, [] => none
  | count + 1, c :: text => if isDecimalDigit c then takeDigits count text else none

/-- Takes one character off a text. -/
def takeMark (mark : Char) : List Char → Option (List Char)
  | [] => none
  | c :: text => if c = mark then some text else none

/-- Takes at most `count` decimal digits off a text. -/
def skipDigits : (count : Nat) → List Char → List Char
  | 0, text => text
  | _ + 1, [] => []
  | count + 1, c :: text => if isDecimalDigit c then skipDigits count text else c :: text

/-- Year, month and day. -/
def takeDate (text : List Char) : Option (List Char) :=
  takeDigits 4 text >>= takeMark '-' >>= takeDigits 2 >>= takeMark '-' >>= takeDigits 2

/-- Hours and minutes. -/
def takeClock (text : List Char) : Option (List Char) :=
  takeDigits 2 text >>= takeMark ':' >>= takeDigits 2

/-- A fraction of a second, if one starts here. -/
def takeFraction : List Char → Option (List Char)
  | '.' :: text => (takeDigits 1 text).map (skipDigits 8)
  | text => some text

/-- Seconds, if they start here. -/
def takeSeconds : List Char → Option (List Char)
  | ':' :: text => takeDigits 2 text >>= takeFraction
  | text => some text

/-- An offset, if one starts here. -/
def takeOffset : List Char → Option (List Char)
  | 'Z' :: text => some text
  | '+' :: text => takeClock text
  | '-' :: text => takeClock text
  | text => some text

/-- What is left of a text after a date-time. -/
def takeInstant (text : List Char) : Option (List Char) :=
  takeDate text >>= takeMark 'T' >>= takeClock >>= takeSeconds >>= takeOffset

/-- The text is a date-time. -/
def isInstant (text : String) : Bool := takeInstant text.toList = some []

end GraphSearch.Cypher
