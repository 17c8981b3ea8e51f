import Mathlib.Computability.Language
import GraphSearch.Cypher.Literal
/-!
# The texts that are date-times

The date-times are a language over a class of digits (`dateTimes`), put together from fields of
digits and the marks between them.  A text is found to be one by taking its parts off the front, and
that finds exactly the texts of the language over the decimal digits of all scripts
(`isInstant_iff`): the parts whose length is fixed leave the same rest however the text goes on
(`Takes`), and of those that may be absent each begins with a mark that nothing behind it begins
with.

ISO 8601 has the same language over the ten digits of ASCII.  So a literal is a call of `datetime`
for more texts than ISO 8601 has, and for these only when a digit of another script stands in them
(`narrows_dateTimes`, `literal_string_iff`).

* `Takes.bind`, `Takes.bind_all`: parts taken one after the other, and a last part to the end;
* `takesAll_optional`, `takesAll_fractionDigits`: the parts that may be absent or of any length;
* `Narrows.mul`: what narrows each part of a text narrows the text;
* `literal_eq_call_iff`, `literal_eq_string_iff`: which of the two literals a text has.
-/

namespace GraphSearch.Cypher

open Unicode

/-! ## 1.  The language -/

section

variable (digit : Char → Bool)

/-- The texts of `count` digits. -/
def digits (count : Nat) : Language Char :=
  {text | text.length = count ∧ ∀ c ∈ text, digit c = true}

/-- The texts of one to nine digits. -/
def fractionDigits : Language Char :=
  {text | (1 ≤ text.length ∧ text.length ≤ 9) ∧ ∀ c ∈ text, digit c = true}

/-- The text of one mark. -/
def mark (c : Char) : Language Char := {[c]}

/-- Year, month and day. -/
def dates : Language Char :=
  digits digit 4 * mark '-' * digits digit 2 * mark '-' * digits digit 2

/-- Hours and minutes. -/
def clocks : Language Char := digits digit 2 * mark ':' * digits digit 2

/-- A fraction of a second, or nothing. -/
def fractions : Language Char := 1 + mark '.' * fractionDigits digit

/-- Seconds, which may have a fraction, or nothing. -/
def seconds : Language Char := 1 + mark ':' * (digits digit 2 * fractions digit)

/-- An offset, or nothing. -/
def offsets : Language Char :=
  1 + mark 'Z' + mark '+' * clocks digit + mark '-' * clocks digit

/-- The date-times whose digits are of the class. -/
def dateTimes : Language Char :=
  dates digit * mark 'T' * clocks digit * (seconds digit * offsets digit)

end

theorem mem_mark {c : Char} {text : List Char} : text ∈ mark c ↔ text = [c] := Iff.rfl

theorem mem_mark_mul {c : Char} {l : Language Char} {text : List Char} :
    text ∈ mark c * l ↔ ∃ rest ∈ l, text = c :: rest := by
  rw [Language.mem_mul]
  constructor
  · rintro ⟨_, rfl, rest, hrest, rfl⟩
    exact ⟨rest, hrest, rfl⟩
  · rintro ⟨rest, hrest, rfl⟩
    exact ⟨[c], rfl, rest, hrest, rfl⟩

/-! ## 2.  Parts of fixed length -/

/-- The function takes a text of the language off the front, and does so of every text that begins
with one. -/
def Takes (take : List Char → Option (List Char)) (l : Language Char) : Prop :=
  ∀ text rest, take text = some rest ↔ ∃ part ∈ l, text = part ++ rest

/-- The function takes exactly the texts of the language off as a whole. -/
def TakesAll (take : List Char → Option (List Char)) (l : Language Char) : Prop :=
  ∀ text, take text = some [] ↔ text ∈ l

section

variable {take next : List Char → Option (List Char)} {l m : Language Char}

theorem Takes.bind (htake : Takes take l) (hnext : Takes next m) :
    Takes (fun text => take text >>= next) (l * m) := by
  intro text rest
  simp only [Option.bind_eq_bind, Option.bind_eq_some_iff]
  constructor
  · rintro ⟨middle, hmiddle, hrest⟩
    obtain ⟨part, hpart, rfl⟩ := (htake _ _).mp hmiddle
    obtain ⟨part', hpart', rfl⟩ := (hnext _ _).mp hrest
    exact ⟨part ++ part', Language.append_mem_mul hpart hpart', (List.append_assoc ..).symm⟩
  · rintro ⟨_, hparts, rfl⟩
    obtain ⟨part, hpart, part', hpart', rfl⟩ := Language.mem_mul.mp hparts
    exact ⟨part' ++ rest, (htake _ _).mpr ⟨part, hpart, List.append_assoc ..⟩,
      (hnext _ _).mpr ⟨part', hpart', rfl⟩⟩

theorem Takes.bind_all (htake : Takes take l) (hnext : TakesAll next m) :
    TakesAll (fun text => take text >>= next) (l * m) := by
  intro text
  simp only [Option.bind_eq_bind, Option.bind_eq_some_iff, hnext _, htake _ _, Language.mem_mul]
  constructor
  · rintro ⟨rest, ⟨part, hpart, rfl⟩, hrest⟩
    exact ⟨part, hpart, rest, hrest, rfl⟩
  · rintro ⟨part, hpart, rest, hrest, rfl⟩
    exact ⟨rest, ⟨part, hpart, rfl⟩, hrest⟩

theorem Takes.all (htake : Takes take l) : TakesAll take l := by
  intro text
  rw [htake text []]
  simp

end

theorem takes_takeMark (c : Char) : Takes (takeMark c) (mark c) := by
  intro text rest
  simp only [mem_mark, exists_eq_left, List.singleton_append]
  cases text with
  | nil => simp [takeMark]
  | cons d text => simp [takeMark]

theorem mem_digits_zero {digit : Char → Bool} {text : List Char} :
    text ∈ digits digit 0 ↔ text = [] := by
  constructor
  · rintro ⟨hlength, -⟩
    exact List.length_eq_zero_iff.mp hlength
  · rintro rfl
    exact ⟨rfl, by simp⟩

theorem cons_mem_digits {digit : Char → Bool} {count : Nat} {c : Char} {text : List Char} :
    c :: text ∈ digits digit (count + 1) ↔ digit c = true ∧ text ∈ digits digit count := by
  have hmem : ∀ {n : Nat} {t : List Char},
      t ∈ digits digit n ↔ t.length = n ∧ ∀ d ∈ t, digit d = true := Iff.rfl
  rw [hmem, hmem, List.length_cons, Nat.add_right_cancel_iff, List.forall_mem_cons]
  tauto

theorem takes_takeDigits (count : Nat) : Takes (takeDigits count) (digits isDecimalDigit count) := by
  induction count with
  | zero =>
    intro text rest
    simp only [mem_digits_zero, exists_eq_left, List.nil_append, takeDigits, Option.some_inj]
  | succ count ih =>
    intro text rest
    cases text with
    | nil =>
      constructor
      · intro h
        cases h
      · rintro ⟨part, ⟨hlength, -⟩, hpart⟩
        rw [(List.append_eq_nil_iff.mp hpart.symm).1] at hlength
        cases hlength
    | cons c text =>
      rw [takeDigits, Option.ite_none_right_eq_some, ih text rest]
      constructor
      · rintro ⟨hc, part, hpart, rfl⟩
        exact ⟨c :: part, cons_mem_digits.mpr ⟨hc, hpart⟩, rfl⟩
      · rintro ⟨_ | ⟨d, part⟩, hpart, htext⟩
        · cases hpart.1
        · obtain ⟨rfl, rfl⟩ := List.cons.inj htext
          obtain ⟨hd, hpart⟩ := cons_mem_digits.mp hpart
          exact ⟨hd, part, hpart, rfl⟩

theorem takes_takeClock : Takes takeClock (clocks isDecimalDigit) :=
  ((takes_takeDigits 2).bind (takes_takeMark ':')).bind (takes_takeDigits 2)

theorem takes_takeDate : Takes takeDate (dates isDecimalDigit) :=
  ((((takes_takeDigits 4).bind (takes_takeMark '-')).bind (takes_takeDigits 2)).bind
    (takes_takeMark '-')).bind (takes_takeDigits 2)

/-! ## 3.  Parts that may be absent -/

theorem mem_offsets {digit : Char → Bool} {text : List Char} :
    text ∈ offsets digit ↔ text = [] ∨ text = ['Z'] ∨
      (∃ clock ∈ clocks digit, text = '+' :: clock) ∨
      ∃ clock ∈ clocks digit, text = '-' :: clock := by
  simp only [offsets, Language.mem_add, Language.mem_one, mem_mark, mem_mark_mul, or_assoc]

/-- What stands at the end begins with none of the characters before it. -/
theorem head?_of_mem_offsets {digit : Char → Bool} {text : List Char} (h : text ∈ offsets digit)
    {c : Char} (hc : text.head? = some c) : c = 'Z' ∨ c = '+' ∨ c = '-' := by
  rcases mem_offsets.mp h with rfl | rfl | ⟨clock, -, rfl⟩ | ⟨clock, -, rfl⟩
  · cases hc
  · exact .inl (Option.some.inj hc).symm
  · exact .inr (.inl (Option.some.inj hc).symm)
  · exact .inr (.inr (Option.some.inj hc).symm)

theorem takesAll_takeOffset : TakesAll takeOffset (offsets isDecimalDigit) := by
  intro text
  rw [mem_offsets, takeOffset.eq_def]
  split
  · simp
  · rw [takes_takeClock.all]
    simp
  · rw [takes_takeClock.all]
    simp
  case h_4 hutc hplus hminus =>
    rw [Option.some_inj]
    refine ⟨.inl, ?_⟩
    rintro (hnil | hZ | ⟨clock, -, hclock⟩ | ⟨clock, -, hclock⟩)
    · exact hnil
    · exact absurd hZ (hutc [])
    · exact absurd hclock (hplus clock)
    · exact absurd hclock (hminus clock)

/-- A part that may be absent and begins with a mark, in front of what never begins with it. -/
theorem takesAll_optional {c : Char} {take inside next : List Char → Option (List Char)}
    {l m : Language Char} (hpresent : ∀ text, take (c :: text) = inside text)
    (habsent : ∀ text : List Char, text.head? ≠ some c → take text = some text)
    (hm : ∀ text ∈ m, text.head? ≠ some c) (hnext : TakesAll next m)
    (hinside : TakesAll (fun text => inside text >>= next) (l * m)) :
    TakesAll (fun text => take text >>= next) ((1 + mark c * l) * m) := by
  intro text
  rw [add_mul, one_mul, mul_assoc, Language.mem_add, mem_mark_mul]
  by_cases hc : text.head? = some c
  · obtain ⟨rest, rfl⟩ := List.head?_eq_some_iff.mp hc
    have hnot : c :: rest ∉ m := fun hmem => hm _ hmem hc
    simp only [hpresent, hinside rest, hnot, false_or, List.cons.injEq, true_and, exists_eq_right']
  · have hnot : ∀ rest, text ≠ c :: rest := by
      rintro rest rfl
      exact hc rfl
    simp only [habsent text hc, Option.bind_eq_bind, Option.bind_some, hnext text, hnot, and_false,
      exists_false, or_false]

/-! ## 4.  Fractions -/

theorem exists_skipDigits (count : Nat) (text : List Char) :
    ∃ part, text = part ++ skipDigits count text ∧ part.length ≤ count ∧
      ∀ c ∈ part, isDecimalDigit c = true := by
  induction count generalizing text with
  | zero => exact ⟨[], rfl, Nat.le_refl 0, by simp⟩
  | succ count ih =>
    cases text with
    | nil => exact ⟨[], rfl, Nat.zero_le _, by simp⟩
    | cons c text =>
      by_cases hc : isDecimalDigit c = true
      · obtain ⟨part, htext, hlength, hpart⟩ := ih text
        rw [skipDigits, if_pos hc]
        exact ⟨c :: part, congrArg (c :: ·) htext, Nat.succ_le_succ hlength,
          List.forall_mem_cons.mpr ⟨hc, hpart⟩⟩
      · rw [skipDigits, if_neg hc]
        exact ⟨[], rfl, Nat.zero_le _, by simp⟩

theorem skipDigits_append {count : Nat} {part rest : List Char} (hlength : part.length ≤ count)
    (hpart : ∀ c ∈ part, isDecimalDigit c = true)
    (hrest : ∀ c, rest.head? = some c → isDecimalDigit c = false) :
    skipDigits count (part ++ rest) = rest := by
  induction part generalizing count with
  | nil =>
    cases count with
    | zero => rfl
    | succ count =>
      cases rest with
      | nil => rfl
      | cons c rest => simp [skipDigits, hrest c rfl]
  | cons c part ih =>
    obtain ⟨hc, hpart⟩ := List.forall_mem_cons.mp hpart
    cases count with
    | zero => cases hlength
    | succ count =>
      rw [List.cons_append, skipDigits, if_pos hc]
      exact ih (Nat.le_of_succ_le_succ hlength) hpart

/-- No decimal digit stands at the front of what stands at the end. -/
theorem isDecimalDigit_head?_of_mem_offsets {text : List Char}
    (h : text ∈ offsets isDecimalDigit) {c : Char} (hc : text.head? = some c) :
    isDecimalDigit c = false := by
  rcases head?_of_mem_offsets h hc with rfl | rfl | rfl <;> rfl

/-- The digits of a fraction are taken as far as they go, since no digit stands behind them. -/
theorem takesAll_fractionDigits :
    TakesAll (fun text => (takeDigits 1 text).map (skipDigits 8) >>= takeOffset)
      (fractionDigits isDecimalDigit * offsets isDecimalDigit) := by
  intro text
  rw [Language.mem_mul]
  constructor
  · intro h
    simp only [Option.bind_eq_bind, Option.bind_eq_some_iff, Option.map_eq_some_iff,
      takes_takeDigits 1 text, takesAll_takeOffset _] at h
    obtain ⟨_, ⟨rest, ⟨first, hfirst, rfl⟩, rfl⟩, hoffset⟩ := h
    obtain ⟨part, hrest, hlength, hpart⟩ := exists_skipDigits 8 rest
    refine ⟨first ++ part, ⟨⟨?_, ?_⟩, ?_⟩, skipDigits 8 rest, hoffset, ?_⟩
    · rw [List.length_append, hfirst.1]
      omega
    · rw [List.length_append, hfirst.1]
      omega
    · exact List.forall_mem_append.mpr ⟨hfirst.2, hpart⟩
    · rw [List.append_assoc, ← hrest]
  · rintro ⟨_ | ⟨c, part⟩, ⟨⟨hone, hnine⟩, hdigits⟩, rest, hoffset, rfl⟩
    · cases hone
    · obtain ⟨hc, hpart⟩ := List.forall_mem_cons.mp hdigits
      have hskip : skipDigits 8 (part ++ rest) = rest :=
        skipDigits_append (Nat.le_of_succ_le_succ hnine) hpart fun c hc =>
          isDecimalDigit_head?_of_mem_offsets hoffset hc
      have htake : takeDigits 1 (c :: part ++ rest) = some (part ++ rest) := by
        rw [List.cons_append, takeDigits, if_pos hc]
        rfl
      simp only [htake, Option.map_some, hskip, Option.bind_eq_bind, Option.bind_some]
      exact (takesAll_takeOffset rest).mpr hoffset

/-! ## 5.  Date-times -/

theorem takesAll_takeFraction : TakesAll (fun text => takeFraction text >>= takeOffset)
    (fractions isDecimalDigit * offsets isDecimalDigit) := by
  refine takesAll_optional (fun _ => rfl) (fun text htext => ?_) (fun text htext hc => ?_)
    takesAll_takeOffset takesAll_fractionDigits
  · rw [takeFraction]
    rintro rest rfl
    exact htext rfl
  · exact absurd (head?_of_mem_offsets htext hc) (by decide)

theorem takesAll_takeSeconds : TakesAll (fun text => takeSeconds text >>= takeOffset)
    (seconds isDecimalDigit * offsets isDecimalDigit) := by
  have hpresent : ∀ text, takeSeconds (':' :: text) = (takeDigits 2 text >>= takeFraction) :=
    fun _ => rfl
  refine takesAll_optional hpresent (fun text htext => ?_) (fun text htext hc => ?_)
    takesAll_takeOffset ?_
  · rw [takeSeconds]
    rintro rest rfl
    exact htext rfl
  · exact absurd (head?_of_mem_offsets htext hc) (by decide)
  · have hparts := (takes_takeDigits 2).bind_all takesAll_takeFraction
    simpa only [Option.bind_eq_bind, Option.bind_assoc, mul_assoc] using hparts

/-- What is found to be a date-time is the language over the decimal digits of all scripts. -/
theorem isInstant_iff {text : String} :
    isInstant text = true ↔ text.toList ∈ dateTimes isDecimalDigit := by
  have hparts := ((takes_takeDate.bind (takes_takeMark 'T')).bind takes_takeClock).bind_all
    takesAll_takeSeconds
  have hinstant : takeInstant text.toList = some [] ↔ text.toList ∈ dateTimes isDecimalDigit := by
    rw [dateTimes, ← hparts text.toList, takeInstant, Option.bind_eq_bind, Option.bind_assoc]
  rw [isInstant, decide_eq_true_iff, hinstant]

/-! ## 6.  The date-times of ISO 8601 -/

/-- Every decimal digit in the text is one of ASCII. -/
def HasAsciiDigits (text : List Char) : Prop :=
  ∀ c ∈ text, isDecimalDigit c = true → c.isDigit = true

/-- The first language has just the texts of the second whose digits are those of ASCII. -/
def Narrows (narrow wide : Language Char) : Prop :=
  ∀ text, text ∈ narrow ↔ text ∈ wide ∧ HasAsciiDigits text

theorem isDecimalDigit_of_isDigit {c : Char} (h : c.isDigit = true) : isDecimalDigit c = true := by
  rw [isDecimalDigit, inRanges, List.any_eq_true]
  refine ⟨(0x30, 0x39), List.mem_cons_self, ?_⟩
  simpa [Char.isDigit, UInt32.le_iff_toNat_le] using h

section

variable {narrow wide narrow' wide' : Language Char}

theorem narrows_one : Narrows 1 1 := by
  intro text
  rw [Language.mem_one]
  constructor
  · rintro rfl
    exact ⟨rfl, by simp [HasAsciiDigits]⟩
  · exact And.left

theorem narrows_mark {c : Char} (hc : isDecimalDigit c = false) : Narrows (mark c) (mark c) := by
  intro text
  rw [mem_mark]
  constructor
  · rintro rfl
    refine ⟨rfl, fun d hd hdigit => ?_⟩
    rw [List.mem_singleton.mp hd, hc] at hdigit
    cases hdigit
  · exact And.left

theorem Narrows.add (h : Narrows narrow wide) (h' : Narrows narrow' wide') :
    Narrows (narrow + narrow') (wide + wide') := by
  intro text
  rw [Language.mem_add, Language.mem_add, h text, h' text, or_and_right]

theorem Narrows.mul (h : Narrows narrow wide) (h' : Narrows narrow' wide') :
    Narrows (narrow * narrow') (wide * wide') := by
  intro text
  rw [Language.mem_mul, Language.mem_mul]
  constructor
  · rintro ⟨part, hpart, part', hpart', rfl⟩
    obtain ⟨hpart, hdigits⟩ := (h part).mp hpart
    obtain ⟨hpart', hdigits'⟩ := (h' part').mp hpart'
    exact ⟨⟨part, hpart, part', hpart', rfl⟩, List.forall_mem_append.mpr ⟨hdigits, hdigits'⟩⟩
  · rintro ⟨⟨part, hpart, part', hpart', rfl⟩, hdigits⟩
    obtain ⟨hfirst, hlast⟩ := List.forall_mem_append.mp hdigits
    exact ⟨part, (h part).mpr ⟨hpart, hfirst⟩, part', (h' part').mpr ⟨hpart', hlast⟩, rfl⟩

/-- A text of ASCII digits is one of decimal digits that are those of ASCII. -/
theorem forall_isDigit_iff {text : List Char} : (∀ c ∈ text, c.isDigit = true) ↔
    (∀ c ∈ text, isDecimalDigit c = true) ∧ HasAsciiDigits text := by
  constructor
  · intro h
    exact ⟨fun c hc => isDecimalDigit_of_isDigit (h c hc), fun c hc _ => h c hc⟩
  · rintro ⟨hdigits, hascii⟩ c hc
    exact hascii c hc (hdigits c hc)

theorem narrows_digits (count : Nat) :
    Narrows (digits Char.isDigit count) (digits isDecimalDigit count) := by
  intro text
  exact (and_congr_right' forall_isDigit_iff).trans (and_assoc ..).symm

theorem narrows_fractionDigits :
    Narrows (fractionDigits Char.isDigit) (fractionDigits isDecimalDigit) := by
  intro text
  exact (and_congr_right' forall_isDigit_iff).trans (and_assoc ..).symm

end

theorem narrows_clocks : Narrows (clocks Char.isDigit) (clocks isDecimalDigit) :=
  ((narrows_digits 2).mul (narrows_mark rfl)).mul (narrows_digits 2)

theorem narrows_dateTimes : Narrows (dateTimes Char.isDigit) (dateTimes isDecimalDigit) := by
  have hdates : Narrows (dates Char.isDigit) (dates isDecimalDigit) :=
    ((((narrows_digits 4).mul (narrows_mark rfl)).mul (narrows_digits 2)).mul
      (narrows_mark rfl)).mul (narrows_digits 2)
  have hfractions : Narrows (fractions Char.isDigit) (fractions isDecimalDigit) :=
    narrows_one.add ((narrows_mark rfl).mul narrows_fractionDigits)
  have hseconds : Narrows (seconds Char.isDigit) (seconds isDecimalDigit) :=
    narrows_one.add ((narrows_mark rfl).mul ((narrows_digits 2).mul hfractions))
  have hoffsets : Narrows (offsets Char.isDigit) (offsets isDecimalDigit) :=
    ((narrows_one.add (narrows_mark rfl)).add ((narrows_mark rfl).mul narrows_clocks)).add
      ((narrows_mark rfl).mul narrows_clocks)
  exact ((hdates.mul (narrows_mark rfl)).mul narrows_clocks).mul (hseconds.mul hoffsets)

/-! ## 7.  Literals of texts -/

/-- The literal of a text is what ISO 8601 says: a call for a date-time, and the text otherwise. -/
structure FollowsIso (s : String) : Prop where
  call_iff : literal (.string s) = "datetime(" ++ string s ++ ")" ↔
    s.toList ∈ dateTimes Char.isDigit
  text : s.toList ∉ dateTimes Char.isDigit → literal (.string s) = string s

theorem call_ne_string (s : String) : "datetime(" ++ string s ++ ")" ≠ string s := by
  intro heq
  have hhead := congrArg (fun text => text.toList.head?) heq
  simp [string, Json.quote] at hhead

theorem literal_eq_call_iff {s : String} : literal (.string s) = "datetime(" ++ string s ++ ")" ↔
    s.toList ∈ dateTimes isDecimalDigit := by
  rw [← isInstant_iff, literal]
  by_cases hinstant : isInstant s = true
  · simp only [hinstant, if_true]
  · simp only [hinstant, if_false, iff_false, Bool.false_eq_true]
    exact (call_ne_string s).symm

theorem literal_eq_string_iff {s : String} : literal (.string s) = string s ↔
    s.toList ∉ dateTimes isDecimalDigit := by
  rw [← isInstant_iff, literal]
  by_cases hinstant : isInstant s = true
  · simp only [hinstant, if_true, not_true, iff_false]
    exact call_ne_string s
  · simp only [hinstant, if_false, Bool.false_eq_true, not_false_eq_true]

theorem followsIso_iff {s : String} :
    FollowsIso s ↔ (s.toList ∈ dateTimes isDecimalDigit → HasAsciiDigits s.toList) := by
  constructor
  · intro hiso hwide
    have hnarrow := hiso.call_iff.mp (literal_eq_call_iff.mpr hwide)
    exact ((narrows_dateTimes _).mp hnarrow).2
  · intro hascii
    have hsame : s.toList ∈ dateTimes isDecimalDigit ↔ s.toList ∈ dateTimes Char.isDigit := by
      rw [narrows_dateTimes s.toList]
      exact ⟨fun hwide => ⟨hwide, hascii hwide⟩, And.left⟩
    exact ⟨literal_eq_call_iff.trans hsame, fun hnot =>
      literal_eq_string_iff.mpr (mt hsame.mp hnot)⟩

/-- **A text is written as a date-time when it is one in the digits of any script.**  So literals
follow ISO 8601, but for the date-times in which some digit is none of ASCII. -/
theorem literal_string_iff (s : String) :
    (literal (.string s) = "datetime(" ++ string s ++ ")" ↔ s.toList ∈ dateTimes isDecimalDigit) ∧
    (literal (.string s) = string s ↔ s.toList ∉ dateTimes isDecimalDigit) ∧
    (FollowsIso s ↔ (s.toList ∈ dateTimes isDecimalDigit → HasAsciiDigits s.toList)) :=
  ⟨literal_eq_call_iff, literal_eq_string_iff, followsIso_iff⟩

/-- Nine digits of a fraction make a date-time, and ten do not. -/
theorem literal_string_iff_fractions :
    FollowsIso "2024-03-01T10:00:30.123456789-01:30" ∧
    literal (.string "2024-03-01T10:00:30.123456789-01:30") =
      "datetime(\"2024-03-01T10:00:30.123456789-01:30\")" ∧
    literal (.string "2024-03-01T10:00:30.1234567890-01:30") =
      string "2024-03-01T10:00:30.1234567890-01:30" := by
  refine ⟨(literal_string_iff _).2.2.mpr fun _ => ?_, ?_, ?_⟩
  · intro c hc hdigit
    have hall : ("2024-03-01T10:00:30.123456789-01:30".toList.all fun c =>
      !isDecimalDigit c || c.isDigit) = true := rfl
    simpa [hdigit] using List.all_eq_true.mp hall c hc
  · exact (literal_string_iff _).1.mpr (isInstant_iff.mp rfl)
  · exact (literal_string_iff _).2.1.mpr (mt isInstant_iff.mpr (by decide))

/-- A year in full-width digits makes a call of `datetime`, and is none in ISO 8601. -/
theorem literal_escapes_iso :
    ¬ FollowsIso "２０２４-03-01T10:00" ∧
    literal (.string "２０２４-03-01T10:00") = "datetime(\"２０２４-03-01T10:00\")" := by
  refine ⟨fun hiso => ?_, rfl⟩
  have hascii := followsIso_iff.mp hiso (isInstant_iff.mp rfl)
  have hdigit : '２'.isDigit = true := hascii '２' (by decide) rfl
  exact absurd hdigit (by decide)

end GraphSearch.Cypher
