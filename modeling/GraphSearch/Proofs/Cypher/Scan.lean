import Mathlib.Tactic.SplitIfs
import GraphSearch.Cypher.Predicate
/-!
# Scanning query text

Whether a piece of query text can be put anywhere without changing how the text around it is
read is decided by one pass over its characters.  Between tokens a quotation mark begins a string
literal, in which a backslash takes the next character along; a backtick begins a quoted name, in
which a backtick is written twice; brackets open and close; and letters, digits and underscores
make words.  A word that directly follows a dot is the name of a property, whatever it is spelled
like; `AND`, `OR` and `XOR` anywhere else, in upper or lower case, are connectives.

A text is *well formed* (`isWellFormed`) when the pass comes to its end outside of string literals
and quoted names, every bracket that was opened has been closed by its like, innermost first, and
no connective stands outside of all brackets.

* `Scan.run_frame`: what is read inside brackets is read there as it is outside of them;
* `Ends`, `Leads`: texts that can be put together, and how they are;
* `ends_quoted`, `leads_string`, `Ends.member`: what users write never ends a token early, nor goes
  on after its end.
-/

namespace GraphSearch.Cypher

/-! ## 1.  The pass -/

/-- A pair of brackets. -/
inductive Bracket where
  | round | square | curly
  deriving DecidableEq, Repr

/-- The brackets a character opens. -/
def Bracket.ofOpening? : Char → Option Bracket
  | '(' => some .round
  | '[' => some .square
  | '\x7b' => some .curly
  | _ => none

/-- The brackets a character closes. -/
def Bracket.ofClosing? : Char → Option Bracket
  | ')' => some .round
  | ']' => some .square
  | '\x7d' => some .curly
  | _ => none

/-- A word that connects conditions. -/
def isConnective (word : List Char) : Bool :=
  let upper := word.map Char.toUpper
  upper = ['A', 'N', 'D'] || upper = ['O', 'R'] || upper = ['X', 'O', 'R']

/-- What the pass is in the middle of. -/
inductive Mode where
  | between
  | inWord (letters : List Char)
  | afterDot
  | inProperty
  | inString
  /-- After a backslash in a string literal. -/
  | inEscape
  | inName
  /-- After a backtick in a quoted name, which ends there unless another one follows. -/
  | atBacktick
  deriving DecidableEq, Repr

/-- A token may end here, and outside of all brackets too. -/
def Mode.isSettled : Mode → Bool
  | .inWord letters => !isConnective letters
  | .inString | .inEscape | .inName => false
  | .between | .afterDot | .inProperty | .atBacktick => true

/-- How far the pass has come: what it is in the middle of, and the open brackets, the innermost
first. -/
structure Scan where
  mode : Mode
  stack : List Bracket
  deriving DecidableEq, Repr

namespace Scan

/-- Reads a character that no token goes on with. -/
def enter (stack : List Bracket) (c : Char) : Option Scan :=
  match Bracket.ofOpening? c, Bracket.ofClosing? c with
  | some bracket, _ => some ⟨.between, bracket :: stack⟩
  | none, some bracket =>
    match stack with
    | top :: outer => if top = bracket then some ⟨.between, outer⟩ else none
    | [] => none
  | none, none =>
    if c = '"' then some ⟨.inString, stack⟩
    else if c = '`' then some ⟨.inName, stack⟩
    else if c = '.' then some ⟨.afterDot, stack⟩
    else if isNamePart c then some ⟨.inWord [c], stack⟩
    else some ⟨.between, stack⟩

/-- Reads a character. -/
def step (scan : Scan) (c : Char) : Option Scan :=
  match scan.mode with
  | .between => enter scan.stack c
  | .inWord letters =>
    if isNamePart c then some ⟨.inWord (letters ++ [c]), scan.stack⟩
    else if isConnective letters && scan.stack.isEmpty then none
    else enter scan.stack c
  | .afterDot | .inProperty =>
    if isNamePart c then some ⟨.inProperty, scan.stack⟩ else enter scan.stack c
  | .inString =>
    some ⟨if c = '"' then .between else if c = '\\' then .inEscape else .inString, scan.stack⟩
  | .inEscape => some ⟨.inString, scan.stack⟩
  | .inName => some ⟨if c = '`' then .atBacktick else .inName, scan.stack⟩
  | .atBacktick => if c = '`' then some ⟨.inName, scan.stack⟩ else enter scan.stack c

/-- Reads a text. -/
def run (scan : Scan) (text : List Char) : Option Scan := text.foldlM step scan

end Scan

/-- All tokens of the text are ended, its brackets are balanced, and no connective stands outside
of them. -/
def isWellFormed (text : String) : Bool :=
  match Scan.run ⟨.between, []⟩ text.toList with
  | some scan => scan.stack.isEmpty && scan.mode.isSettled
  | none => false

/-- A connective has to stand in brackets or quotes, but a property may be called like one. -/
example : isWellFormed "a OR b" = false ∧
    isWellFormed "(a OR b[0]) = \"x\\\" AND (\" + r.`x``]`.and" = true := by decide +kernel

/-! ## 2.  Texts one after another -/

namespace Scan

theorem run_cons (scan : Scan) (c : Char) (text : List Char) :
    run scan (c :: text) = (scan.step c).bind fun next => run next text := List.foldlM_cons

theorem run_append (scan : Scan) (text more : List Char) :
    run scan (text ++ more) = (run scan text).bind fun next => run next more :=
  List.foldlM_append

theorem enter_frame {stack : List Bracket} {c : Char} {next : Scan}
    (h : enter stack c = some next) (outer : List Bracket) :
    enter (stack ++ outer) c = some ⟨next.mode, next.stack ++ outer⟩ := by
  simp only [enter] at h ⊢
  split at h
  · obtain rfl := Option.some.inj h
    rfl
  · cases stack with
    | nil => cases h
    | cons top inner =>
      simp only [List.cons_append] at h ⊢
      split at h
      case isTrue htop =>
        obtain rfl := Option.some.inj h
        rw [if_pos htop]
      case isFalse => cases h
  · split_ifs at h ⊢ <;> cases h <;> rfl

/-- A character is read inside brackets as it is outside of them. -/
theorem step_frame {scan next : Scan} {c : Char} (h : scan.step c = some next)
    (outer : List Bracket) :
    step ⟨scan.mode, scan.stack ++ outer⟩ c = some ⟨next.mode, next.stack ++ outer⟩ := by
  obtain ⟨mode, stack⟩ := scan
  cases mode with
  | between => exact enter_frame h outer
  | inWord letters =>
    simp only [step] at h ⊢
    split_ifs at h with hpart hconnective
    · obtain rfl := Option.some.inj h
      rw [if_pos hpart]
    · -- a connective that may stand here may stand inside further brackets
      have hinner : ¬(isConnective letters && (stack ++ outer).isEmpty) = true := by
        intro hall
        simp only [Bool.and_eq_true, List.isEmpty_iff, List.append_eq_nil_iff] at hall hconnective
        exact hconnective ⟨hall.1, hall.2.1⟩
      rw [if_neg hpart, if_neg hinner]
      exact enter_frame h outer
  | afterDot | inProperty | atBacktick =>
    simp only [step] at h ⊢
    split_ifs at h ⊢
    · obtain rfl := Option.some.inj h
      rfl
    · exact enter_frame h outer
  | inString | inEscape | inName =>
    obtain rfl := Option.some.inj h
    rfl

/-- A text is read inside brackets as it is outside of them. -/
theorem run_frame {scan next : Scan} {text : List Char} (h : run scan text = some next)
    (outer : List Bracket) :
    run ⟨scan.mode, scan.stack ++ outer⟩ text = some ⟨next.mode, next.stack ++ outer⟩ := by
  induction text generalizing scan with
  | nil =>
    obtain rfl := Option.some.inj h
    rfl
  | cons c text ih =>
    rw [run_cons] at h ⊢
    obtain ⟨middle, hstep, hrest⟩ := Option.bind_eq_some_iff.mp h
    rw [step_frame hstep outer]
    exact ih hrest

/-- A character that continues neither a word nor a quoted name. -/
def isApart (c : Char) : Bool := !isNamePart c && c ≠ '`'

/-- Where a token may end, such a character ends it. -/
theorem step_of_isSettled {mode : Mode} {c : Char} (hmode : mode.isSettled = true)
    (hc : isApart c = true) (stack : List Bracket) : step ⟨mode, stack⟩ c = enter stack c := by
  simp only [isApart, Bool.and_eq_true, Bool.not_eq_true', decide_eq_true_eq] at hc
  cases mode with
  | between => rfl
  | inWord letters =>
    have hletters : isConnective letters = false := by simpa [Mode.isSettled] using hmode
    simp [step, hc.1, hletters]
  | afterDot | inProperty => simp [step, hc.1]
  | atBacktick => simp [step, hc.2]
  | inString | inEscape | inName => cases hmode

end Scan

/-- Read from between two tokens, the text leads to between two tokens. -/
def Leads (before after : List Bracket) (text : String) : Prop :=
  Scan.run ⟨.between, before⟩ text.toList = some ⟨.between, after⟩

instance (before after : List Bracket) (text : String) : Decidable (Leads before after text) :=
  inferInstanceAs (Decidable (_ = _))

/-- Read from between two tokens, the text leads to where a token may end. -/
def Ends (before after : List Bracket) (text : String) : Prop :=
  ∃ mode : Mode, mode.isSettled = true ∧
    Scan.run ⟨.between, before⟩ text.toList = some ⟨mode, after⟩

/-- The text starts with a character that continues nothing before it. -/
def startsApart (text : String) : Bool := text.toList.head?.any Scan.isApart

section

variable {before middle after outer stack : List Bracket} {text more : String}

theorem isWellFormed_iff : isWellFormed text = true ↔ Ends [] [] text := by
  constructor
  · intro h
    rw [isWellFormed] at h
    split at h
    case h_1 scan hrun =>
      obtain ⟨mode, stack⟩ := scan
      rw [Bool.and_eq_true, List.isEmpty_iff] at h
      obtain ⟨rfl, hmode⟩ := h
      exact ⟨mode, hmode, hrun⟩
    case h_2 => cases h
  · rintro ⟨mode, hmode, hrun⟩
    rw [isWellFormed, hrun]
    exact hmode

theorem Leads.ends (h : Leads before after text) : Ends before after text := ⟨_, rfl, h⟩

theorem Ends.inside (h : Ends before after text) (outer : List Bracket) :
    Ends (before ++ outer) (after ++ outer) text := by
  obtain ⟨mode, hmode, hrun⟩ := h
  exact ⟨mode, hmode, Scan.run_frame hrun outer⟩

theorem ends_empty (stack : List Bracket) : Ends stack stack "" := ⟨.between, rfl, rfl⟩

theorem Leads.append_ends (h : Leads before middle text) (hmore : Ends middle after more) :
    Ends before after (text ++ more) := by
  obtain ⟨mode, hmode, hrun⟩ := hmore
  refine ⟨mode, hmode, ?_⟩
  rw [String.toList_append, Scan.run_append, h]
  exact hrun

theorem Leads.append_leads (h : Leads before middle text) (hmore : Leads middle after more) :
    Leads before after (text ++ more) := by
  rw [Leads, String.toList_append, Scan.run_append, h]
  exact hmore

/-- What starts apart is read after a token as it is read between tokens. -/
theorem Ends.run_append (h : Ends before middle text) (hapart : startsApart more = true) :
    Scan.run ⟨.between, before⟩ (text ++ more).toList =
      Scan.run ⟨.between, middle⟩ more.toList := by
  obtain ⟨mode, hmode, hrun⟩ := h
  rw [String.toList_append, Scan.run_append, hrun, Option.bind_some]
  rw [startsApart] at hapart
  cases hmore : more.toList with
  | nil =>
    rw [hmore] at hapart
    cases hapart
  | cons c rest =>
    rw [hmore] at hapart
    rw [Scan.run_cons, Scan.run_cons, Scan.step_of_isSettled hmode hapart]
    rfl

theorem Ends.append_leads (h : Ends before middle text) (hmore : Leads middle after more)
    (hapart : startsApart more = true) : Leads before after (text ++ more) :=
  (h.run_append hapart).trans hmore

theorem Ends.append_ends (h : Ends before middle text) (hmore : Ends middle after more)
    (hapart : startsApart more = true) : Ends before after (text ++ more) := by
  obtain ⟨mode, hmode, hrun⟩ := hmore
  exact ⟨mode, hmode, (h.run_append hapart).trans hrun⟩

/-- Texts that a separator joins. -/
theorem ends_intercalate {separator : String} {items : List String}
    (hseparator : Leads stack stack separator) (hapart : startsApart separator = true)
    (h : ∀ item ∈ items, Ends stack stack item) :
    Ends stack stack (separator.intercalate items) := by
  induction items with
  | nil => exact ends_empty stack
  | cons first items ih =>
    have hfirst := h first List.mem_cons_self
    cases items with
    | nil =>
      rw [String.intercalate_singleton]
      exact hfirst
    | cons second items =>
      have hrest := ih fun item hitem => h item (List.mem_cons_of_mem first hitem)
      rw [String.intercalate_cons_cons]
      exact (hfirst.append_leads hseparator hapart).append_ends hrest

end

/-! ## 3.  Words and names -/

section

variable {stack : List Bracket}

theorem enter_of_isNamePart {c : Char} (h : isNamePart c = true) (stack : List Bracket) :
    Scan.enter stack c = some ⟨.inWord [c], stack⟩ := by
  have hne : ∀ d, isNamePart d = false → c ≠ d := by
    rintro d hd rfl
    exact absurd (hd.symm.trans h) Bool.false_ne_true
  have hopening : Bracket.ofOpening? c = none := by
    unfold Bracket.ofOpening?
    split <;> first | rfl | exact absurd h (by decide)
  have hclosing : Bracket.ofClosing? c = none := by
    unfold Bracket.ofClosing?
    split <;> first | rfl | exact absurd h (by decide)
  rw [Scan.enter, hopening, hclosing]
  simp only [hne '"' (by decide), hne '`' (by decide), hne '.' (by decide), h, if_false, if_true]

theorem run_inWord {letters word : List Char} (h : word.all isNamePart = true) :
    Scan.run ⟨.inWord letters, stack⟩ word = some ⟨.inWord (letters ++ word), stack⟩ := by
  induction word generalizing letters with
  | nil => rw [List.append_nil]; rfl
  | cons c word ih =>
    obtain ⟨hc, hword⟩ := Bool.and_eq_true_iff.mp (List.all_cons ▸ h)
    rw [Scan.run_cons, Scan.step]
    simp only [hc, if_true, Option.bind_some, ih hword, List.append_assoc, List.singleton_append]

/-- A word other than a connective. -/
theorem ends_word {word : String} (h : word.toList.all isNamePart = true)
    (hword : isConnective word.toList = false) : Ends stack stack word := by
  rw [Ends]
  cases hlist : word.toList with
  | nil => exact ⟨.between, rfl, rfl⟩
  | cons c rest =>
    rw [hlist] at h hword
    obtain ⟨hc, hrest⟩ := Bool.and_eq_true_iff.mp (List.all_cons ▸ h)
    refine ⟨.inWord (c :: rest), by rw [Mode.isSettled, hword]; rfl, ?_⟩
    rw [Scan.run_cons, Scan.step, enter_of_isNamePart hc, Option.bind_some, run_inWord hrest]
    rfl

theorem run_inProperty {word : List Char} (h : word.all isNamePart = true) :
    Scan.run ⟨.inProperty, stack⟩ word = some ⟨.inProperty, stack⟩ := by
  induction word with
  | nil => rfl
  | cons c word ih =>
    obtain ⟨hc, hword⟩ := Bool.and_eq_true_iff.mp (List.all_cons ▸ h)
    rw [Scan.run_cons, Scan.step]
    simp only [hc, if_true, Option.bind_some, ih hword]

/-- Inside of a quoted name, doubled backticks do not end it. -/
theorem run_doubleBackticks (chars : List Char) :
    Scan.run ⟨.inName, stack⟩ (doubleBackticks chars) = some ⟨.inName, stack⟩ := by
  induction chars using doubleBackticks.induct with
  | case1 => rfl
  | case2 rest ih =>
    rw [doubleBackticks, Scan.run_cons, Scan.step, if_pos rfl, Option.bind_some, Scan.run_cons]
    exact ih
  | case3 c rest hc ih =>
    rw [doubleBackticks.eq_3 _ _ hc, Scan.run_cons, Scan.step, if_neg fun heq => hc heq]
    exact ih

/-- The characters of a quoted name after the first one. -/
theorem run_quotedTail (raw : String) :
    Scan.run ⟨.inName, stack⟩ (doubleBackticks raw.toList ++ ['`']) =
      some ⟨.atBacktick, stack⟩ := by
  rw [Scan.run_append, run_doubleBackticks]
  rfl

theorem ends_quoted (raw : String) : Ends stack stack (quoted raw) := by
  refine ⟨.atBacktick, rfl, ?_⟩
  rw [quoted, String.toList_ofList, Scan.run_cons]
  exact run_quotedTail raw

theorem isNamePart_of_isPlain {raw : String} (h : isPlain raw = true) :
    ∃ c rest, raw.toList = c :: rest ∧ isNamePart c = true ∧ rest.all isNamePart = true := by
  rw [isPlain] at h
  cases hraw : raw.toList with
  | nil =>
    rw [hraw] at h
    cases h
  | cons c rest =>
    rw [hraw, isPlainChars, Bool.and_eq_true] at h
    exact ⟨c, rest, rfl, by rw [isNamePart, h.1, Bool.true_or], h.2⟩

/-- After a dot, any name is the name of a property. -/
theorem run_afterDot_name (raw : String) (stack : List Bracket) :
    ∃ mode : Mode, mode.isSettled = true ∧
      Scan.run ⟨.afterDot, stack⟩ (name raw).toList = some ⟨mode, stack⟩ := by
  cases hplain : isPlain raw with
  | true =>
    obtain ⟨c, rest, hraw, hc, hrest⟩ := isNamePart_of_isPlain hplain
    refine ⟨.inProperty, rfl, ?_⟩
    rw [name, if_pos hplain, hraw, Scan.run_cons, Scan.step]
    simp only [hc, if_true, Option.bind_some]
    exact run_inProperty hrest
  | false =>
    refine ⟨.atBacktick, rfl, ?_⟩
    rw [name, hplain, if_neg Bool.false_ne_true, quoted, String.toList_ofList, Scan.run_cons]
    exact run_quotedTail raw

/-- A property of what ends. -/
theorem Ends.member {before after : List Bracket} {base : String} (h : Ends before after base)
    (key : String) : Ends before after (member base key) := by
  obtain ⟨mode, hmode, hrun⟩ := run_afterDot_name key after
  refine ⟨mode, hmode, ?_⟩
  rw [Cypher.member, String.append_assoc, h.run_append (by
    rw [startsApart, String.toList_append]
    rfl), String.toList_append]
  exact hrun

/-! ## 4.  String literals -/

/-- An escaped character stays inside of the literal. -/
theorem run_escape (c : Char) :
    Scan.run ⟨.inString, stack⟩ (Json.escape c).toList = some ⟨.inString, stack⟩ := by
  unfold Json.escape
  split
  case h_8 hquote hslash _ _ _ _ _ =>
    split
    case isTrue hc =>
      have hdigit : ∀ n < 16, hexDigit n ≠ '"' ∧ hexDigit n ≠ '\\' := by decide +kernel
      have hhigh := hdigit (c.toNat / 16) (by omega)
      have hlow := hdigit (c.toNat % 16) (by omega)
      rw [String.toList_append, String.toList_ofList, String.toList_ofList, Scan.run_append]
      show Scan.run ⟨.inString, stack⟩
        [hexDigit (c.toNat / 16), hexDigit (c.toNat % 16)] = _
      simp [Scan.run, Scan.step, hhigh, hlow]
    case isFalse =>
      have hplain : ¬c = '"' ∧ ¬c = '\\' := ⟨hquote, hslash⟩
      rw [Char.toString, String.toList_singleton]
      simp [Scan.run, Scan.step, hplain]
  all_goals rfl

theorem run_escapes (chars : List Char) :
    Scan.run ⟨.inString, stack⟩ (chars.flatMap fun c => (Json.escape c).toList) =
      some ⟨.inString, stack⟩ := by
  induction chars with
  | nil => rfl
  | cons c chars ih =>
    rw [List.flatMap_cons, Scan.run_append, run_escape]
    exact ih

/-- A string literal ends where it is closed, and leads to between two tokens. -/
theorem leads_string (raw : String) : Leads stack stack (string raw) := by
  have hchars : (string raw).toList =
      '"' :: (raw.toList.flatMap (fun c => (Json.escape c).toList) ++ ['"']) := by
    rw [string, Json.quote, String.toList_append, String.toList_append, String.toList_join,
      List.flatMap_map]
    rfl
  rw [Leads, hchars, Scan.run_cons]
  show (Scan.run ⟨.inString, stack⟩ _) = _
  rw [Scan.run_append, run_escapes]
  rfl

end
end GraphSearch.Cypher
