import GraphSearch.Json.Reader
import GraphSearch.Proofs.Results
/-!
# What the readers of JSON read

A reader takes a value off the front of a text, with a proof that it took something.  For each
reader one equivalence says which texts it reads as what (`readMoreItems_reads_iff` and the like),
so that nothing after this module opens a reader.

* `Token`: a value by the first character of its text;
* `readValue_reads_iff`, `parse_eq_ok_iff`: values within a depth, and documents;
* `Reads.value_mono`: what is read at a depth is read the same at every greater one.
-/

namespace GraphSearch.Json

open Results

/-! ## 1.  Readings -/

/-- The reader takes the value off the front of the text and leaves the rest. -/
def Reads {α : Type} (read : Reader α) (text : List Char) (value : α) (rest : List Char) :
    Prop :=
  ∃ taken, read text = .ok taken ∧ taken.value = value ∧ taken.rest = rest

section

variable {α : Type} {read : Reader α} {text rest : List Char} {value : α}

theorem Reads.lt (h : Reads read text value rest) : rest.length < text.length := by
  obtain ⟨taken, -, -, rfl⟩ := h
  exact taken.shorter

/-- A text is read in one way. -/
theorem Reads.unique {other : α} {left : List Char} (h : Reads read text value rest)
    (h' : Reads read text other left) : value = other ∧ rest = left := by
  obtain ⟨taken, h, rfl, rfl⟩ := h
  obtain ⟨taken', h', rfl, rfl⟩ := h'
  rw [h] at h'
  cases h'
  exact ⟨rfl, rfl⟩

end

theorem lt_of_skipBlanks {c : Char} {text rest : List Char} (h : skipBlanks text = c :: rest) :
    rest.length < text.length := by
  have hle := length_skipBlanks_le text
  rw [h, List.length_cons] at hle
  exact hle

/-! ## 2.  Arrays -/

variable {item : Reader Json} {text rest : List Char}

theorem readMoreItems_reads_iff {values : List Json} :
    Reads (readMoreItems item) text values rest ↔
      (skipBlanks text = ']' :: rest ∧ values = []) ∨
      ∃ after c left value middle others, skipBlanks text = ',' :: after ∧
        skipBlanks after = c :: left ∧ c ≠ ']' ∧ Reads item after value middle ∧
        Reads (readMoreItems item) middle others rest ∧ values = value :: others := by
  constructor
  · rintro ⟨taken, h, rfl, rfl⟩
    rw [readMoreItems] at h
    split at h
    case h_1 => cases h
    case h_2 left hclose =>
      cases h
      exact .inl ⟨hclose, rfl⟩
    case h_3 after hcomma =>
      split at h
      case h_1 => cases h
      case h_2 => cases h
      case h_3 c left hc hafter =>
        obtain ⟨head, hhead, h⟩ := bind_eq_ok.mp h
        obtain ⟨tail, htail, ⟨⟩⟩ := bind_eq_ok.mp h
        exact .inr ⟨after, c, left, head.value, head.rest, tail.value, hcomma, hafter,
          hc, ⟨head, hhead, rfl, rfl⟩, ⟨tail, htail, rfl, rfl⟩, rfl⟩
    case h_4 => cases h
  · rintro (⟨hclose, rfl⟩ | ⟨after, c, left, _, _, _, hcomma, hafter, hc, ⟨head, hhead, rfl, rfl⟩,
      ⟨tail, htail, rfl, rfl⟩, rfl⟩)
    · refine ⟨⟨[], rest, lt_of_skipBlanks hclose⟩, ?_, rfl, rfl⟩
      rw [readMoreItems]
      split
      case h_1 heq => cases hclose.symm.trans heq
      case h_2 left heq => cases hclose.symm.trans heq; rfl
      case h_3 left heq => cases hclose.symm.trans heq
      case h_4 d left hne hne' heq => cases hclose.symm.trans heq; exact absurd rfl hne
    · refine ⟨⟨head.value :: tail.value, tail.rest, Nat.lt_trans tail.shorter
        (Nat.lt_trans head.shorter (lt_of_skipBlanks hcomma))⟩, ?_, rfl, rfl⟩
      rw [readMoreItems]
      split
      case h_1 heq => cases hcomma.symm.trans heq
      case h_2 left heq => cases hcomma.symm.trans heq
      case h_3 left heq =>
        cases hcomma.symm.trans heq
        split
        case h_1 heq => cases hafter.symm.trans heq
        case h_2 left heq => cases hafter.symm.trans heq; exact absurd rfl hc
        case h_3 => exact bind_eq_ok.mpr ⟨head, hhead, bind_eq_ok.mpr ⟨tail, htail, rfl⟩⟩
      case h_4 d left hne hne' heq => cases hcomma.symm.trans heq; exact absurd rfl hne'

theorem readItems_reads_iff {values : List Json} :
    Reads (readItems item) text values rest ↔
      (skipBlanks text = ']' :: rest ∧ values = []) ∨
      ∃ c left value middle others, skipBlanks text = c :: left ∧ c ≠ ']' ∧
        Reads item text value middle ∧ Reads (readMoreItems item) middle others rest ∧
        values = value :: others := by
  constructor
  · rintro ⟨taken, h, rfl, rfl⟩
    rw [readItems] at h
    split at h
    case h_1 => cases h
    case h_2 left hclose =>
      cases h
      exact .inl ⟨hclose, rfl⟩
    case h_3 c left hc htext =>
      obtain ⟨head, hhead, h⟩ := bind_eq_ok.mp h
      obtain ⟨tail, htail, ⟨⟩⟩ := bind_eq_ok.mp h
      exact .inr ⟨c, left, head.value, head.rest, tail.value, htext, hc,
        ⟨head, hhead, rfl, rfl⟩, ⟨tail, htail, rfl, rfl⟩, rfl⟩
  · rintro (⟨hclose, rfl⟩ | ⟨c, left, _, _, _, htext, hc, ⟨head, hhead, rfl, rfl⟩,
      ⟨tail, htail, rfl, rfl⟩, rfl⟩)
    · refine ⟨⟨[], rest, lt_of_skipBlanks hclose⟩, ?_, rfl, rfl⟩
      rw [readItems]
      split
      case h_1 heq => cases hclose.symm.trans heq
      case h_2 left heq => cases hclose.symm.trans heq; rfl
      case h_3 d left hd heq => cases hclose.symm.trans heq; exact absurd rfl hd
    · refine ⟨⟨head.value :: tail.value, tail.rest, Nat.lt_trans tail.shorter head.shorter⟩,
        ?_, rfl, rfl⟩
      rw [readItems]
      split
      case h_1 heq => cases htext.symm.trans heq
      case h_2 left heq => cases htext.symm.trans heq; exact absurd rfl hc
      case h_3 => exact bind_eq_ok.mpr ⟨head, hhead, bind_eq_ok.mpr ⟨tail, htail, rfl⟩⟩

/-! ## 3.  Objects -/

theorem readEntry_reads_iff {entry : String × Json} :
    Reads (readEntry item) text entry rest ↔
      ∃ body middle after, text = '"' :: body ∧ Reads readText body entry.1 middle ∧
        skipBlanks middle = ':' :: after ∧ Reads item after entry.2 rest := by
  constructor
  · rintro ⟨taken, h, rfl, rfl⟩
    unfold readEntry at h
    split at h
    case h_1 body =>
      obtain ⟨key, hkey, h⟩ := bind_eq_ok.mp h
      split at h
      case h_1 => cases h
      case h_2 after hcolon =>
        obtain ⟨value, hvalue, ⟨⟩⟩ := bind_eq_ok.mp h
        exact ⟨body, key.rest, after, rfl, ⟨key, hkey, rfl, rfl⟩, hcolon,
          ⟨value, hvalue, rfl, rfl⟩⟩
      case h_3 => cases h
    case h_2 => cases h
  · obtain ⟨name, v⟩ := entry
    rintro ⟨body, _, after, rfl, ⟨key, hkey, rfl, rfl⟩, hcolon, ⟨value, hvalue, rfl, rfl⟩⟩
    have hlt : value.rest.length < body.length :=
      Nat.lt_trans value.shorter (Nat.lt_trans (lt_of_skipBlanks hcolon) key.shorter)
    refine ⟨⟨(key.value, value.value), value.rest, Nat.lt_succ_of_lt hlt⟩, ?_, rfl, rfl⟩
    refine bind_eq_ok.mpr ⟨key, hkey, ?_⟩
    split
    case h_1 heq => cases hcolon.symm.trans heq
    case h_2 left heq =>
      cases hcolon.symm.trans heq
      exact bind_eq_ok.mpr ⟨value, hvalue, rfl⟩
    case h_3 c left hne heq => cases hcolon.symm.trans heq; exact absurd rfl hne

theorem readMoreEntries_reads_iff {fields result : List (String × Json)} :
    Reads (readMoreEntries item fields) text result rest ↔
      (skipBlanks text = '\x7d' :: rest ∧ result = fields) ∨
      ∃ after entry middle, skipBlanks text = ',' :: after ∧
        Reads (readEntry item) (skipBlanks after) entry middle ∧
        Reads (readMoreEntries item (Table.insert entry.1 entry.2 fields)) middle result rest := by
  constructor
  · rintro ⟨taken, h, rfl, rfl⟩
    rw [readMoreEntries] at h
    split at h
    case h_1 => cases h
    case h_2 left hclose =>
      cases h
      exact .inl ⟨hclose, rfl⟩
    case h_3 after hcomma =>
      split at h
      case h_1 => cases h
      case h_2 => cases h
      case h_3 =>
        obtain ⟨head, hhead, h⟩ := bind_eq_ok.mp h
        obtain ⟨tail, htail, ⟨⟩⟩ := bind_eq_ok.mp h
        exact .inr ⟨after, head.value, head.rest, hcomma, ⟨head, hhead, rfl, rfl⟩,
          ⟨tail, htail, rfl, rfl⟩⟩
    case h_4 => cases h
  · rintro (⟨hclose, rfl⟩ | ⟨after, _, _, hcomma, ⟨head, hhead, rfl, rfl⟩, ⟨tail, htail, rfl, rfl⟩⟩)
    · refine ⟨⟨result, rest, lt_of_skipBlanks hclose⟩, ?_, rfl, rfl⟩
      rw [readMoreEntries]
      split
      case h_1 heq => cases hclose.symm.trans heq
      case h_2 left heq => cases hclose.symm.trans heq; rfl
      case h_3 left heq => cases hclose.symm.trans heq
      case h_4 d left hne hne' heq => cases hclose.symm.trans heq; exact absurd rfl hne
    · have hlt : tail.rest.length < text.length :=
        Nat.lt_trans tail.shorter (Nat.lt_trans
          (Nat.lt_of_lt_of_le head.shorter (length_skipBlanks_le after)) (lt_of_skipBlanks hcomma))
      obtain ⟨body, _, _, hquote, -⟩ := readEntry_reads_iff.mp ⟨head, hhead, rfl, rfl⟩
      refine ⟨⟨tail.value, tail.rest, hlt⟩, ?_, rfl, rfl⟩
      rw [readMoreEntries]
      split
      case h_1 heq => cases hcomma.symm.trans heq
      case h_2 left heq => cases hcomma.symm.trans heq
      case h_3 left heq =>
        cases hcomma.symm.trans heq
        split
        case h_1 heq => cases hquote.symm.trans heq
        case h_2 left heq => cases hquote.symm.trans heq
        case h_3 => exact bind_eq_ok.mpr ⟨head, hhead, bind_eq_ok.mpr ⟨tail, htail, rfl⟩⟩
      case h_4 d left hne hne' heq => cases hcomma.symm.trans heq; exact absurd rfl hne'

theorem readEntries_reads_iff {result : List (String × Json)} :
    Reads (readEntries item) text result rest ↔
      (skipBlanks text = '\x7d' :: rest ∧ result = []) ∨
      ∃ entry middle, Reads (readEntry item) (skipBlanks text) entry middle ∧
        Reads (readMoreEntries item [entry]) middle result rest := by
  constructor
  · rintro ⟨taken, h, rfl, rfl⟩
    rw [readEntries] at h
    split at h
    case h_1 => cases h
    case h_2 left hclose =>
      cases h
      exact .inl ⟨hclose, rfl⟩
    case h_3 =>
      obtain ⟨head, hhead, h⟩ := bind_eq_ok.mp h
      obtain ⟨tail, htail, ⟨⟩⟩ := bind_eq_ok.mp h
      exact .inr ⟨head.value, head.rest, ⟨head, hhead, rfl, rfl⟩, ⟨tail, htail, rfl, rfl⟩⟩
  · rintro (⟨hclose, rfl⟩ | ⟨_, _, ⟨head, hhead, rfl, rfl⟩, ⟨tail, htail, rfl, rfl⟩⟩)
    · refine ⟨⟨[], rest, lt_of_skipBlanks hclose⟩, ?_, rfl, rfl⟩
      rw [readEntries]
      split
      case h_1 heq => cases hclose.symm.trans heq
      case h_2 left heq => cases hclose.symm.trans heq; rfl
      case h_3 hne => exact absurd hclose (hne _)
    · have hlt : tail.rest.length < text.length :=
        Nat.lt_trans tail.shorter
          (Nat.lt_of_lt_of_le head.shorter (length_skipBlanks_le text))
      obtain ⟨body, _, _, hquote, -⟩ := readEntry_reads_iff.mp ⟨head, hhead, rfl, rfl⟩
      refine ⟨⟨tail.value, tail.rest, hlt⟩, ?_, rfl, rfl⟩
      rw [readEntries]
      split
      case h_1 heq => cases hquote.symm.trans heq
      case h_2 left heq => cases hquote.symm.trans heq
      case h_3 => exact bind_eq_ok.mpr ⟨head, hhead, bind_eq_ok.mpr ⟨tail, htail, rfl⟩⟩

/-! ## 4.  Values -/

theorem eq_of_readWord {value v : Json} {word text : List Char}
    (h : Reads (readWord value word) text v rest) : word ++ rest = text ∧ value = v := by
  induction word generalizing text with
  | nil =>
    obtain ⟨taken, h, -, -⟩ := h
    cases h
  | cons w word ih =>
    obtain ⟨taken, h, rfl, rfl⟩ := h
    match word, text with
    | _, [] => cases word <;> cases h
    | [], c :: left =>
      change (if c = w then _ else _) = _ at h
      split at h
      case isTrue hc =>
        cases h
        exact ⟨by rw [hc]; rfl, rfl⟩
      case isFalse => cases h
    | w' :: word, c :: left =>
      change (if c = w then _ else _) = _ at h
      split at h
      case isTrue hc =>
        obtain ⟨tail, htail, ⟨⟩⟩ := bind_eq_ok.mp h
        obtain ⟨hleft, hvalue⟩ := ih ⟨tail, htail, rfl, rfl⟩
        subst hc
        exact ⟨congrArg (c :: ·) hleft, hvalue⟩
      case isFalse => cases h

/-- What a token is read as, by its first character, when arrays and objects are read by
`inner`. -/
inductive Token (inner : Option (Reader Json)) : List Char → Json → List Char → Prop where
  | null {left : List Char} : Token inner ('n' :: 'u' :: 'l' :: 'l' :: left) .null left
  | yes {left : List Char} : Token inner ('t' :: 'r' :: 'u' :: 'e' :: left) (.bool true) left
  | no {left : List Char} :
    Token inner ('f' :: 'a' :: 'l' :: 's' :: 'e' :: left) (.bool false) left
  | string {body left : List Char} {s : String} : Reads readText body s left →
    Token inner ('"' :: body) (.string s) left
  | number {c : Char} {body left : List Char} {n : Number} : c = '-' ∨ isDigit c = true →
    readNumeral (c :: body) = .ok (n, left) → Token inner (c :: body) (.number n) left
  | array {read : Reader Json} {body left : List Char} {items : List Json} :
    inner = some read → Reads (readItems read) body items left →
    Token inner ('[' :: body) (.array items) left
  | object {read : Reader Json} {body left : List Char} {fields : List (String × Json)} :
    inner = some read → Reads (readEntries read) body fields left →
    Token inner ('\x7b' :: body) (.object fields) left

theorem readToken_reads_iff {inner : Option (Reader Json)} {value : Json} :
    Reads (readToken inner) text value rest ↔ Token inner text value rest := by
  constructor
  · rintro ⟨taken, h, rfl, rfl⟩
    unfold readToken at h
    split at h
    case h_1 => cases h
    case h_2 body =>
      obtain ⟨word, hword, ⟨⟩⟩ := bind_eq_ok.mp h
      obtain ⟨hbody, hvalue⟩ := eq_of_readWord ⟨word, hword, rfl, rfl⟩
      have htoken : Token inner ('n' :: (['u', 'l', 'l'] ++ word.rest)) .null word.rest := .null
      rwa [hbody, hvalue] at htoken
    case h_3 body =>
      obtain ⟨word, hword, ⟨⟩⟩ := bind_eq_ok.mp h
      obtain ⟨hbody, hvalue⟩ := eq_of_readWord ⟨word, hword, rfl, rfl⟩
      have htoken : Token inner ('t' :: (['r', 'u', 'e'] ++ word.rest)) (.bool true) word.rest :=
        .yes
      rwa [hbody, hvalue] at htoken
    case h_4 body =>
      obtain ⟨word, hword, ⟨⟩⟩ := bind_eq_ok.mp h
      obtain ⟨hbody, hvalue⟩ := eq_of_readWord ⟨word, hword, rfl, rfl⟩
      have htoken : Token inner ('f' :: (['a', 'l', 's', 'e'] ++ word.rest)) (.bool false)
        word.rest := .no
      rwa [hbody, hvalue] at htoken
    case h_5 body =>
      obtain ⟨s, hs, ⟨⟩⟩ := bind_eq_ok.mp h
      exact .string ⟨s, hs, rfl, rfl⟩
    case h_6 body =>
      split at h
      case h_1 item =>
        obtain ⟨items, hitems, ⟨⟩⟩ := bind_eq_ok.mp h
        exact .array rfl ⟨items, hitems, rfl, rfl⟩
      case h_2 => cases h
    case h_7 body =>
      split at h
      case h_1 item =>
        obtain ⟨fields, hfields, ⟨⟩⟩ := bind_eq_ok.mp h
        exact .object rfl ⟨fields, hfields, rfl, rfl⟩
      case h_2 => cases h
    case h_8 c body =>
      split at h
      case isTrue hc =>
        unfold readNumber at h
        split at h
        case h_1 n left hn =>
          cases h
          exact .number hc hn
        case h_2 => cases h
      case isFalse => cases h
  · intro h
    cases h with
    | null => exact ⟨_, rfl, rfl, rfl⟩
    | yes => exact ⟨_, rfl, rfl, rfl⟩
    | no => exact ⟨_, rfl, rfl, rfl⟩
    | string hs =>
      obtain ⟨s, hs, rfl, rfl⟩ := hs
      exact ⟨_, bind_eq_ok.mpr ⟨s, hs, rfl⟩, rfl, rfl⟩
    | @number c body left n hc hn =>
      refine ⟨⟨.number n, rest, readNumeral_lt hn⟩, ?_, rfl, rfl⟩
      have hnumber : readNumber (c :: body) = .ok ⟨.number n, rest, readNumeral_lt hn⟩ := by
        unfold readNumber
        split
        case h_1 heq => cases hn.symm.trans heq; rfl
        case h_2 heq => cases hn.symm.trans heq
      have hclass : c ≠ 'n' ∧ c ≠ 't' ∧ c ≠ 'f' ∧ c ≠ '"' ∧ c ≠ '[' ∧ c ≠ '\x7b' := by
        refine ⟨?_, ?_, ?_, ?_, ?_, ?_⟩ <;> (rintro rfl; revert hc; decide)
      obtain ⟨hn, ht, hf, hq, hb, ho⟩ := hclass
      unfold readToken
      split <;> simp_all
    | array hinner hitems =>
      subst hinner
      obtain ⟨items, hitems, rfl, rfl⟩ := hitems
      exact ⟨_, bind_eq_ok.mpr ⟨items, hitems, rfl⟩, rfl, rfl⟩
    | object hinner hfields =>
      subst hinner
      obtain ⟨fields, hfields, rfl, rfl⟩ := hfields
      exact ⟨_, bind_eq_ok.mpr ⟨fields, hfields, rfl⟩, rfl, rfl⟩

/-- What arrays and objects are read by where they may be nested `depth` deep. -/
def containers : (depth : Nat) → Option (Reader Json)
  | 0 => none
  | depth + 1 => some (readValue depth)

theorem readValue_reads_iff {depth : Nat} {value : Json} :
    Reads (readValue depth) text value rest ↔
      Token (containers depth) (skipBlanks text) value rest := by
  have hvalue : readValue depth text =
      readToken (containers depth) (skipBlanks text) >>= fun token =>
        .ok (token.widen (length_skipBlanks_le text)) := by
    cases depth <;> rfl
  rw [← readToken_reads_iff]
  constructor
  · rintro ⟨taken, h, rfl, rfl⟩
    rw [hvalue] at h
    obtain ⟨token, htoken, ⟨⟩⟩ := bind_eq_ok.mp h
    exact ⟨token, htoken, rfl, rfl⟩
  · rintro ⟨token, htoken, rfl, rfl⟩
    refine ⟨token.widen (length_skipBlanks_le text), ?_, rfl, rfl⟩
    rw [hvalue]
    exact bind_eq_ok.mpr ⟨token, htoken, rfl⟩

theorem parse_eq_ok_iff {source : String} {value : Json} :
    parse source = .ok value ↔
      ∃ left, Reads (readValue maxDepth) source.toList value left ∧ skipBlanks left = [] := by
  rw [parse, mapError_eq_ok]
  constructor
  · intro h
    obtain ⟨taken, htaken, h⟩ := bind_eq_ok.mp h
    dsimp only at h
    split at h
    case isTrue hend =>
      cases h
      exact ⟨taken.rest, ⟨taken, htaken, rfl, rfl⟩, List.isEmpty_iff.mp hend⟩
    case isFalse => cases h
  · rintro ⟨_, ⟨taken, htaken, rfl, rfl⟩, hend⟩
    refine bind_eq_ok.mpr ⟨taken, htaken, ?_⟩
    rw [hend]
    rfl

/-! ## 5.  What is read at a depth is read at every greater one -/

section

variable {deeper : Reader Json}

theorem Reads.moreItems_mono {values : List Json}
    (hitem : ∀ {text value rest}, Reads item text value rest → Reads deeper text value rest)
    (h : Reads (readMoreItems item) text values rest) :
    Reads (readMoreItems deeper) text values rest := by
  induction values generalizing text with
  | nil =>
    obtain hclose | ⟨_, _, _, _, _, _, _, _, _, _, _, ⟨⟩⟩ := readMoreItems_reads_iff.mp h
    exact readMoreItems_reads_iff.mpr (.inl hclose)
  | cons value values ih =>
    obtain ⟨-, ⟨⟩⟩ | ⟨after, c, left, _, middle, _, hcomma, hafter, hc, hvalue, hmore, ⟨⟩⟩ :=
      readMoreItems_reads_iff.mp h
    exact readMoreItems_reads_iff.mpr (.inr
      ⟨after, c, left, value, middle, values, hcomma, hafter, hc, hitem hvalue, ih hmore, rfl⟩)

theorem Reads.items_mono {values : List Json}
    (hitem : ∀ {text value rest}, Reads item text value rest → Reads deeper text value rest)
    (h : Reads (readItems item) text values rest) :
    Reads (readItems deeper) text values rest := by
  obtain hclose | ⟨c, left, value, middle, others, htext, hc, hvalue, hmore, rfl⟩ :=
    readItems_reads_iff.mp h
  · exact readItems_reads_iff.mpr (.inl hclose)
  · exact readItems_reads_iff.mpr (.inr
      ⟨c, left, value, middle, others, htext, hc, hitem hvalue, hmore.moreItems_mono hitem, rfl⟩)

theorem Reads.entry_mono {entry : String × Json}
    (hitem : ∀ {text value rest}, Reads item text value rest → Reads deeper text value rest)
    (h : Reads (readEntry item) text entry rest) : Reads (readEntry deeper) text entry rest := by
  obtain ⟨body, middle, after, htext, hkey, hcolon, hvalue⟩ := readEntry_reads_iff.mp h
  exact readEntry_reads_iff.mpr ⟨body, middle, after, htext, hkey, hcolon, hitem hvalue⟩

theorem Reads.moreEntries_mono {text rest : List Char} {fields result : List (String × Json)}
    (hitem : ∀ {text value rest}, Reads item text value rest → Reads deeper text value rest)
    (h : Reads (readMoreEntries item fields) text result rest) :
    Reads (readMoreEntries deeper fields) text result rest := by
  obtain hclose | ⟨after, entry, middle, hcomma, hentry, hmore⟩ := readMoreEntries_reads_iff.mp h
  · exact readMoreEntries_reads_iff.mpr (.inl hclose)
  · have hafter : middle.length < text.length :=
      Nat.lt_trans (Nat.lt_of_lt_of_le hentry.lt (length_skipBlanks_le after))
        (lt_of_skipBlanks hcomma)
    exact readMoreEntries_reads_iff.mpr (.inr
      ⟨after, entry, middle, hcomma, hentry.entry_mono hitem, hmore.moreEntries_mono hitem⟩)
termination_by text.length

theorem Reads.entries_mono {result : List (String × Json)}
    (hitem : ∀ {text value rest}, Reads item text value rest → Reads deeper text value rest)
    (h : Reads (readEntries item) text result rest) :
    Reads (readEntries deeper) text result rest := by
  obtain hclose | ⟨entry, middle, hentry, hmore⟩ := readEntries_reads_iff.mp h
  · exact readEntries_reads_iff.mpr (.inl hclose)
  · exact readEntries_reads_iff.mpr (.inr
      ⟨entry, middle, hentry.entry_mono hitem, hmore.moreEntries_mono hitem⟩)

end

theorem Token.mono {inner deeper : Option (Reader Json)} {value : Json}
    (hinner : ∀ {read}, inner = some read → ∃ read', deeper = some read' ∧
      ∀ {text value rest}, Reads read text value rest → Reads read' text value rest)
    (h : Token inner text value rest) : Token deeper text value rest := by
  cases h with
  | null => exact .null
  | yes => exact .yes
  | no => exact .no
  | string hs => exact .string hs
  | number hc hn => exact .number hc hn
  | array hread hitems =>
    obtain ⟨read', hread', hitem⟩ := hinner hread
    exact .array hread' (hitems.items_mono hitem)
  | object hread hfields =>
    obtain ⟨read', hread', hitem⟩ := hinner hread
    exact .object hread' (hfields.entries_mono hitem)

theorem Reads.value_mono {depth : Nat} {value : Json} (h : Reads (readValue depth) text value rest)
    {greater : Nat} (hle : depth ≤ greater) : Reads (readValue greater) text value rest := by
  induction depth generalizing greater text value rest with
  | zero =>
    rw [readValue_reads_iff] at h ⊢
    refine h.mono fun hread => ?_
    cases hread
  | succ depth ih =>
    obtain ⟨greater, rfl⟩ : ∃ n, greater = n + 1 := ⟨greater - 1, by omega⟩
    rw [readValue_reads_iff] at h ⊢
    refine h.mono fun hread => ?_
    cases hread
    exact ⟨readValue greater, rfl, fun hvalue => ih hvalue (by omega)⟩

end GraphSearch.Json
