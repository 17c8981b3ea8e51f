import GraphSearch.Double
import GraphSearch.Json.Text
import GraphSearch.Toml.Basic
/-!
# TOML numbers, dates and truth values

A value without quotes or brackets is a phrase of words with blanks between them, and
what it is can be told from the phrase alone.  Nearly always it is one word; a date and
its time may be two.  Digits may be grouped by single underscores between two of them, and a
decimal number has no leading zero.  An integer is known by its first group of digits
and may then turn out to have no value (`decimalInteger?`); floats and dates have to be
well formed to the end.
-/

namespace GraphSearch.Toml

/-! ## 1.  Numbers -/

/-- One of the ten ASCII digits. -/
def isDigit (c : Char) : Bool := '0' ≤ c && c ≤ '9'

/-- The digits of a group of digits, without the underscores between them. -/
def ungroup (digit : Char → Bool) : List Char → Option (List Char)
  | [] => none
  | [c] => if digit c then some [c] else none
  | c :: '_' :: rest => if digit c then (ungroup digit rest).map (c :: ·) else none
  | c :: rest => if digit c then (ungroup digit rest).map (c :: ·) else none

/-- The number that digits denote in a base. -/
def numberOf (base : Nat) (digits : List Char) : Nat :=
  digits.foldl (fun n c => base * n + (Json.hexValue? c).getD 0) 0

/-- A natural number in a base. -/
def natural? (base : Nat) (word : List Char) : Option Nat :=
  (ungroup (fun c => (Json.hexValue? c).any (· < base)) word).map (numberOf base)

/-- A decimal natural number without leading zeros. -/
def decimal? (word : List Char) : Option Nat :=
  match word with
  | '0' :: _ :: _ => none
  | word => natural? 10 word

/-- The word without a sign, and whether the sign was a minus. -/
def splitSign : List Char → Bool × List Char
  | '-' :: word => (true, word)
  | '+' :: word => (false, word)
  | word => (false, word)

/-- The value of an integer, which has to fit 128 bits, with or without sign. -/
def ofInteger (i : Int) : Toml :=
  if -Int.pow 2 127 ≤ i ∧ i < Int.pow 2 128 then .integer i else .valueless

/-- A hexadecimal digit. -/
def isHexDigit (c : Char) : Bool := (Json.hexValue? c).isSome

/-- Every underscore stands between two hexadecimal digits; `inside` is set after one. -/
def underscoresInside (inside : Bool) : List Char → Bool
  | [] => true
  | '_' :: c :: word => inside && isHexDigit c && underscoresInside true word
  | c :: word => c ≠ '_' && underscoresInside (isHexDigit c) word

/-- A decimal integer without sign.  Behind its first digits and an underscore there may
stand anything but a space or what would make it a float, but then it has no value. -/
def decimalInteger? (negative : Bool) (word : List Char) : Option Toml :=
  match decimal? word with
  | some n => some (ofInteger (if negative then -n else n))
  | none =>
    let tail := word.dropWhile isDigit
    if word.head?.any (fun c => isDigit c && c ≠ '0') && tail.head? = some '_'
        && underscoresInside true tail && !tail.any (· ∈ ['.', 'e', 'E', ' '])
    then some .valueless else none

/-- An integer in a base other than ten, without digits or with them. -/
def radixInteger? (base : Nat) (digits : List Char) : Option Toml :=
  if digits.isEmpty then some .valueless
  else (natural? base digits).map fun n => ofInteger n

/-- An integer. -/
def integer? (word : List Char) : Option Toml :=
  match word with
  | '0' :: 'x' :: digits => radixInteger? 16 digits
  | '0' :: 'o' :: digits => radixInteger? 8 digits
  | '0' :: 'b' :: digits => radixInteger? 2 digits
  | word => decimalInteger? (splitSign word).1 (splitSign word).2

/-- The exponent at the end of a float, zero when nothing is left. -/
def exponent? : List Char → Option Int
  | [] => some 0
  | c :: rest =>
    if c = 'e' || c = 'E' then
      let (negative, digits) := splitSign rest
      (natural? 10 digits).map fun n => if negative then -n else n
    else none

/-- A character of a group of decimal digits. -/
def inGroup (c : Char) : Bool := isDigit c || c = '_'

/-- A float without sign: its digits, and the power of ten they are multiplied by. -/
def decimalParts? (word : List Char) : Option (Nat × Int) := do
  let whole ← decimal? (word.takeWhile inGroup)
  match word.dropWhile inGroup with
  | [] => none
  | '.' :: rest =>
    let fraction ← ungroup isDigit (rest.takeWhile inGroup)
    let exponent ← exponent? (rest.dropWhile inGroup)
    return (whole * Nat.pow 10 fraction.length + numberOf 10 fraction, exponent - fraction.length)
  | rest => return (whole, ← exponent? rest)

/-- A float.  Infinity may be written as such, but no digits may denote it. -/
def float? (word : List Char) : Option Toml :=
  let word := (splitSign word).2
  if word = ['i', 'n', 'f'] || word = ['n', 'a', 'n'] then some .float
  else (decimalParts? word).map fun parts =>
    if (Magnitude.ofScientific parts.1 parts.2).isSome then .float else .valueless

/-! ## 2.  Dates and times -/

/-- The number that exactly `count` digits denote. -/
def fixed? (count : Nat) (word : List Char) : Option Nat :=
  if word.length = count && word.all isDigit then some (numberOf 10 word) else none

/-- The number of days of a month. -/
def daysIn (year month : Nat) : Nat :=
  if month = 2 then
    if year % 4 = 0 ∧ (year % 100 ≠ 0 ∨ year % 400 = 0) then 29 else 28
  else if month ∈ [4, 6, 9, 11] then 30 else 31

/-- A date: year, month and day. -/
def isDate : List Char → Bool
  | [y₁, y₂, y₃, y₄, '-', m₁, m₂, '-', d₁, d₂] =>
    match fixed? 4 [y₁, y₂, y₃, y₄], fixed? 2 [m₁, m₂], fixed? 2 [d₁, d₂] with
    | some year, some month, some day =>
      1 ≤ month && month ≤ 12 && 1 ≤ day && day ≤ daysIn year month
    | _, _, _ => false
  | _ => false

/-- Hours and minutes. -/
def isClock (h₁ h₂ m₁ m₂ : Char) : Bool :=
  (fixed? 2 [h₁, h₂]).any (· < 24) && (fixed? 2 [m₁, m₂]).any (· < 60)

/-- A time: hours and minutes, and possibly seconds with a fraction. -/
def isTime : List Char → Bool
  | [h₁, h₂, ':', m₁, m₂] => isClock h₁ h₂ m₁ m₂
  | h₁ :: h₂ :: ':' :: m₁ :: m₂ :: ':' :: s₁ :: s₂ :: rest =>
    isClock h₁ h₂ m₁ m₂ && (fixed? 2 [s₁, s₂]).any (· ≤ 60) &&
      (match rest with
      | [] => true
      | '.' :: fraction => !fraction.isEmpty && fraction.all isDigit
      | _ => false)
  | _ => false

/-- An offset, or none. -/
def isOffset : List Char → Bool
  | [] | ['Z'] | ['z'] => true
  | ['+', h₁, h₂, ':', m₁, m₂] => isClock h₁ h₂ m₁ m₂
  | ['-', h₁, h₂, ':', m₁, m₂] => isClock h₁ h₂ m₁ m₂
  | _ => false

/-- A character of a time before its offset. -/
def inTime (c : Char) : Bool := isDigit c || c = ':' || c = '.'

/-- A date, a time, or both with or without an offset. -/
def isMoment (word : List Char) : Bool :=
  isTime word || isDate (word.take 10) &&
    (match word.drop 10 with
    | [] => true
    | mark :: rest =>
      mark ∈ ['T', 't', ' '] && isTime (rest.takeWhile inTime)
        && isOffset (rest.dropWhile inTime))

/-! ## 3.  Words -/

/-- A character of a word. -/
def isWordChar (c : Char) : Bool :=
  c ∉ [' ', '\t', '\n', '\r', '#', '=', ',', '[', ']', '\x7b', '\x7d']

/-- A character that a word after the first can start with: a quote would start a string,
and a point goes on with the word before it. -/
def startsWord (c : Char) : Bool := isWordChar c && c ∉ ['.', '"', '\'']

/-- Takes a phrase.  Blanks belong to it only if a further word comes after them; those
passed since the last word are kept in `blanks`, the latest first. -/
def takePhrase (blanks : List Char) : List Char → List Char × List Char
  | [] => ([], blanks.reverse)
  | c :: text =>
    if c = ' ' || c = '\t' then takePhrase (c :: blanks) text
    else if startsWord c || (blanks.isEmpty && isWordChar c) then
      let (phrase, rest) := takePhrase [] text
      (blanks.reverse ++ c :: phrase, rest)
    else ([], blanks.reverse ++ c :: text)

/-- The value a phrase denotes. -/
def scalar? (phrase : List Char) : Option Toml :=
  if phrase = ['t', 'r', 'u', 'e'] then some (.boolean true)
  else if phrase = ['f', 'a', 'l', 's', 'e'] then some (.boolean false)
  else ((integer? phrase).orElse fun _ => float? phrase).orElse fun _ =>
    if isMoment phrase then some .date else none

/-- Takes a value that is a phrase. -/
def takeScalar (text : List Char) : Option (Toml × List Char) :=
  let (phrase, rest) := takePhrase [] text
  (scalar? phrase).map (·, rest)

end GraphSearch.Toml
