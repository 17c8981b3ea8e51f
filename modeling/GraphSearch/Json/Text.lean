import GraphSearch.Json.Lexical
/-!
# String literals

Reads a JSON string from the character after its opening quotation mark.  A code point
beyond U+FFFF may be written as two hexadecimal escapes, a leading and a trailing
surrogate; a surrogate that stands alone is refused, so that what is read is always a
sequence of characters.
-/

namespace GraphSearch.Json

/-! ## 1.  Escapes -/

/-- The value of a hexadecimal digit, in either case. -/
def hexValue? (c : Char) : Option Nat :=
  if '0' ≤ c ∧ c ≤ '9' then some (c.toNat - '0'.toNat)
  else if 'a' ≤ c ∧ c ≤ 'f' then some (c.toNat - 'a'.toNat + 10)
  else if 'A' ≤ c ∧ c ≤ 'F' then some (c.toNat - 'A'.toNat + 10)
  else none

/-- The number four hexadecimal digits denote. -/
def hexFour? (a b c d : Char) : Option Nat := do
  let a ← hexValue? a
  let b ← hexValue? b
  let c ← hexValue? c
  let d ← hexValue? d
  return ((a * 16 + b) * 16 + c) * 16 + d

/-- Four bytes are left, but they are not hexadecimal digits; or fewer are left. -/
def failHex {α : Type} (text : List Char) : Except Fault α :=
  if 4 ≤ byteCount text then .error ⟨.invalidEscape, text, 4⟩ else failAt .eofString []

/-- Reads four hexadecimal digits. -/
def readHex : Reader Nat
  | a :: b :: c :: d :: rest =>
    match hexFour? a b c d with
    | some n => .ok ⟨n, rest, by simp only [List.length_cons]; omega⟩
    | none => failHex (a :: b :: c :: d :: rest)
  | text => failHex text

/-- The first of two surrogates. -/
def isLeading (n : Nat) : Bool := 0xD800 ≤ n && n ≤ 0xDBFF

/-- The second of two surrogates. -/
def isTrailing (n : Nat) : Bool := 0xDC00 ≤ n && n ≤ 0xDFFF

/-- The character two surrogates stand for. -/
def joinSurrogates (leading trailing : Nat) : Char :=
  Char.ofNat (0x10000 + (leading - 0xD800) * 0x400 + (trailing - 0xDC00))

/-- Reads the escape of the trailing surrogate that must follow a leading one. -/
def readTrailing (leading : Nat) : Reader Char
  | [] => failAt .eofString []
  | '\\' :: [] => failAt .eofString []
  | '\\' :: 'u' :: text => do
    let taken ← readHex text
    if isTrailing taken.value then
      return (taken.map (joinSurrogates leading)).widen
        (by simp only [List.length_cons]; omega)
    else failAt .unpairedSurrogate taken.rest
  | '\\' :: text => failOn .unfinishedSurrogate text
  | text => failOn .unfinishedSurrogate text

/-- Reads the part of a hexadecimal escape after its `u`. -/
def readUnicode : Reader Char := fun text => do
  let taken ← readHex text
  if isTrailing taken.value then failAt .unpairedSurrogate taken.rest
  else if isLeading taken.value then
    return (← readTrailing taken.value taken.rest).widen (Nat.le_of_lt taken.shorter)
  else return taken.map Char.ofNat

/-- The character an escape of one letter stands for. -/
def simpleEscape? : Char → Option Char
  | '"' => some '"'
  | '\\' => some '\\'
  | '/' => some '/'
  | 'b' => some '\x08'
  | 'f' => some '\x0c'
  | 'n' => some '\n'
  | 'r' => some '\r'
  | 't' => some '\t'
  | _ => none

/-- Reads the part of an escape after its backslash. -/
def readEscape : Reader Char
  | [] => failAt .eofString []
  | 'u' :: text => return (← readUnicode text).past 'u'
  | c :: text =>
    match simpleEscape? c with
    | some d => .ok ⟨d, text, by simp⟩
    | none => failOn .invalidEscape (c :: text)

/-! ## 2.  The literal -/

/-- Reads the characters of a string up to and including its closing quotation mark. -/
def readChars (text : List Char) : Except Fault (Taken (List Char) text) :=
  match text with
  | [] => failAt .eofString []
  | '"' :: rest => .ok ⟨[], rest, by simp⟩
  | '\\' :: after => do
    let head ← readEscape after
    let tail ← readChars head.rest
    return (tail.map (head.value :: ·)).widen
      (Nat.le_of_lt (Nat.lt_succ_of_lt head.shorter))
  | c :: after =>
    if c.toNat < 0x20 then failOn .controlCharacter (c :: after)
    else do
      let tail ← readChars after
      return (tail.map (c :: ·)).past c
termination_by text.length
decreasing_by
  · have := head.shorter; simp only [List.length_cons]; omega
  · simp

/-- Reads a string from the character after its opening quotation mark. -/
def readText : Reader String := fun text => return (← readChars text).map String.ofList

end GraphSearch.Json
