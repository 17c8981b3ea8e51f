import GraphSearch.Json.Basic
import GraphSearch.Json.Lexical
/-!
# Numerals

A numeral without point and exponent that fits 64 bits, with or without sign, is an
integer; `-0` and everything else is a double.  A double is made from as many leading
digits as fit 64 bits, and a decimal exponent that accounts for the others
(`gather`); `Magnitude.ofDecimal` says how the two are put together.

The reader is entered at the minus sign or at the first digit.
-/

namespace GraphSearch.Json

/-! ## 1.  Digits -/

/-- The value of a decimal digit. -/
def digitValue (c : Char) : Nat := c.toNat - '0'.toNat

/-- One of the ten ASCII digits. -/
def isDigit (c : Char) : Bool := '0' ≤ c && c ≤ '9'

/-- The largest digit string kept is below this. -/
def gatherBound : Nat := Nat.pow 2 64

/-- Appends decimal digits to a number as long as the result stays below the bound; from
the first one that does not fit, all are left out.  Returns the number, how many
digits it took and how many it left out. -/
def gather (number : Nat) : List Char → Nat × Nat × Nat
  | [] => (number, 0, 0)
  | c :: digits =>
    let next := 10 * number + digitValue c
    if next < gatherBound then
      let (result, kept, dropped) := gather next digits
      (result, kept + 1, dropped)
    else (number, 0, digits.length + 1)

/-- A run of digits and what follows it. -/
def spanDigits (text : List Char) : List Char × List Char :=
  (text.takeWhile isDigit, text.dropWhile isDigit)

theorem length_spanDigits_le (text : List Char) :
    (spanDigits text).2.length ≤ text.length :=
  (List.dropWhile_sublist isDigit).length_le

/-! ## 2.  Exponents -/

/-- The largest exponent that is still counted. -/
def exponentBound : Nat := Nat.pow 2 31

/-- What the digits of an exponent come to. -/
inductive ExponentDigits where
  /-- A number below the bound. -/
  | small (value : Nat)
  /-- The number reaches the bound at a digit after which `left` is still to be read. -/
  | huge (left : List Char)

/-- Reads the digits of an exponent, `text` being all that follows its sign. -/
def exponentDigits (value : Nat) : List Char → ExponentDigits
  | [] => .small value
  | c :: text =>
    if isDigit c then
      let next := 10 * value + digitValue c
      if next < exponentBound then exponentDigits next text else .huge text
    else .small value

/-! ## 3.  Doubles -/

/-- The double with the sign, digits and decimal exponent given, read up to `left`. -/
def makeDouble (negative : Bool) (digits : Nat) (exponent : Int) (left : List Char) :
    Except Fault Number :=
  match Magnitude.ofDecimal digits exponent with
  | some magnitude => .ok (.float ⟨negative, magnitude⟩)
  | none => failAt .numberOutOfRange left

/-- The text after a sign, if one stands there. -/
def dropSign : List Char → List Char
  | '+' :: text => text
  | '-' :: text => text
  | text => text

/-- Reads the part of a numeral after the `e`.  The digits before it denote
`digits · 10 ^ exponent`. -/
def readExponent (negative : Bool) (digits : Nat) (exponent : Int) (text : List Char) :
    Except Fault (Number × List Char) :=
  let down := text.head? = some '-'
  let body := dropSign text
  let rest := (spanDigits body).2
  if body.isEmpty then failAt .eofValue body
  else if ¬ body.head?.any isDigit then failOn .invalidNumber body
  else match exponentDigits 0 body with
    | .small shift =>
      let scale := if down then exponent - shift else exponent + shift
      (makeDouble negative digits scale rest).map (·, rest)
    | .huge left =>
      if digits ≠ 0 ∧ ¬ down then failAt .numberOutOfRange left
      else .ok (.float ⟨negative, .zero⟩, rest)

/-- Reads the part of a numeral after its digits, where an exponent may stand. -/
def readTail (negative : Bool) (digits : Nat) (exponent : Int) (text : List Char) :
    Except Fault (Number × List Char) :=
  match text with
  | 'e' :: body => readExponent negative digits exponent body
  | 'E' :: body => readExponent negative digits exponent body
  | _ => (makeDouble negative digits exponent text).map (·, text)

/-- Reads the part of a numeral after the point. -/
def readFraction (negative : Bool) (digits : Nat) (exponent : Int) (text : List Char) :
    Except Fault (Number × List Char) :=
  let (run, rest) := spanDigits text
  if run.isEmpty then failOn (if text.isEmpty then .eofValue else .invalidNumber) text
  else
    let gathered := gather digits run
    readTail negative gathered.1 (exponent - gathered.2.1) rest

/-! ## 4.  Numerals -/

/-- The integer with the sign and digits given, if it fits 64 bits with its sign. -/
def makeInteger (negative : Bool) (digits : Nat) : Number :=
  if ¬ negative then .int digits
  else if 0 < digits ∧ digits ≤ Nat.pow 2 63 then .int (-digits)
  else .float ⟨true, (Magnitude.ofRatio digits 1).getD .zero⟩

/-- Reads the part of a numeral after the digits of its integer, of which `dropped` did
not fit into `digits`. -/
def readRest (negative : Bool) (digits dropped : Nat) (text : List Char) :
    Except Fault (Number × List Char) :=
  match text with
  | '.' :: body => readFraction negative digits dropped body
  | _ =>
    if dropped = 0 ∧ ¬ text.head?.any (· ∈ ['e', 'E']) then
      .ok (makeInteger negative digits, text)
    else readTail negative digits dropped text

/-- Reads the part of a numeral after its sign. -/
def readUnsigned (negative : Bool) (text : List Char) : Except Fault (Number × List Char) :=
  match text with
  | [] => failAt .eofValue text
  | '0' :: after =>
    if after.head?.any isDigit then failOn .invalidNumber after
    else readRest negative 0 0 after
  | c :: after =>
    if ¬ isDigit c then failOn .invalidNumber text
    else
      let (run, rest) := spanDigits after
      let gathered := gather (digitValue c) run
      readRest negative gathered.1 gathered.2.2 rest

/-- Reads a numeral from its sign or first digit on. -/
def readNumeral (text : List Char) : Except Fault (Number × List Char) :=
  match text with
  | '-' :: body => readUnsigned true body
  | _ => readUnsigned false text

/-! ## 5.  A numeral is not empty -/

theorem length_dropSign_le (text : List Char) : (dropSign text).length ≤ text.length := by
  unfold dropSign; split <;> simp

theorem rest_of_map {α : Type} {x : Except Fault α} {rest left : List Char} {v : α}
    (h : x.map (·, rest) = .ok (v, left)) : left = rest := by
  cases x with
  | error e => cases h
  | ok a => cases h; rfl

theorem readExponent_le {negative : Bool} {digits : Nat} {exponent : Int}
    {text left : List Char} {v : Number}
    (h : readExponent negative digits exponent text = .ok (v, left)) :
    left.length ≤ text.length := by
  have hrest : (spanDigits (dropSign text)).2.length ≤ text.length :=
    Nat.le_trans (length_spanDigits_le _) (length_dropSign_le _)
  simp only [readExponent] at h
  split at h
  · cases h
  · split at h
    · cases h
    · split at h
      · rw [rest_of_map h]; exact hrest
      · split at h
        · cases h
        · cases h; exact hrest

theorem readTail_le {negative : Bool} {digits : Nat} {exponent : Int}
    {text left : List Char} {v : Number}
    (h : readTail negative digits exponent text = .ok (v, left)) :
    left.length ≤ text.length := by
  unfold readTail at h
  split at h
  · exact Nat.le_trans (readExponent_le h) (by simp)
  · exact Nat.le_trans (readExponent_le h) (by simp)
  · exact Nat.le_of_eq (by rw [rest_of_map h])

theorem readFraction_le {negative : Bool} {digits : Nat} {exponent : Int}
    {text left : List Char} {v : Number}
    (h : readFraction negative digits exponent text = .ok (v, left)) :
    left.length ≤ text.length := by
  simp only [readFraction] at h
  split at h
  · cases h
  · exact Nat.le_trans (readTail_le h) (length_spanDigits_le _)

theorem readRest_le {negative : Bool} {digits dropped : Nat} {text left : List Char}
    {v : Number} (h : readRest negative digits dropped text = .ok (v, left)) :
    left.length ≤ text.length := by
  unfold readRest at h
  split at h
  · exact Nat.le_trans (readFraction_le h) (by simp)
  · split at h
    · cases h; exact Nat.le_refl _
    · exact readTail_le h

theorem readUnsigned_lt {negative : Bool} {text left : List Char} {v : Number}
    (h : readUnsigned negative text = .ok (v, left)) : left.length < text.length := by
  unfold readUnsigned at h
  split at h
  · cases h
  · split at h
    · cases h
    · exact Nat.lt_succ_of_le (readRest_le h)
  · split at h
    · cases h
    · exact Nat.lt_succ_of_le (Nat.le_trans (readRest_le h) (length_spanDigits_le _))

/-- A numeral takes at least one character. -/
theorem readNumeral_lt {text left : List Char} {v : Number}
    (h : readNumeral text = .ok (v, left)) : left.length < text.length := by
  unfold readNumeral at h
  split at h
  · exact Nat.lt_trans (readUnsigned_lt h) (by simp)
  · exact readUnsigned_lt h

end GraphSearch.Json
