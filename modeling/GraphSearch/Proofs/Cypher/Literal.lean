import GraphSearch.Proofs.Cypher.Scan
import GraphSearch.Proofs.Json.RoundTrip
/-!
# Literals are well formed

Every literal is read to its end and leaves the brackets around it as they are, whatever texts,
numbers and keys it is made of (`ends_literal`).  A number is made of few characters
(`IsNumeral`), and no word that these make is a connective.
-/

namespace GraphSearch.Cypher

open Criteria

variable {stack : List Bracket}

/-! ## 1.  Numbers -/

/-- The characters that numbers are written with. -/
def numeralChars : List Char := "0123456789-+.e".toList

/-- The text has only characters that numbers are written with. -/
def IsNumeral (text : String) : Prop := ∀ c ∈ text.toList, c ∈ numeralChars

theorem isNumeral_of_all {text : String}
    (h : (text.toList.all fun c => numeralChars.contains c) = true) : IsNumeral text :=
  fun c hc => List.contains_iff_mem.mp (List.all_eq_true.mp h c hc)

/-- What a look at each of these characters shows is true of them. -/
theorem forall_numeralChars {p : Char → Prop} [DecidablePred p]
    (h : (numeralChars.all fun c => decide (p c)) = true) : ∀ c ∈ numeralChars, p c :=
  fun c hc => of_decide_eq_true (List.all_eq_true.mp h c hc)

theorem IsNumeral.append {text more : String} (h : IsNumeral text) (hmore : IsNumeral more) :
    IsNumeral (text ++ more) := by
  intro c hc
  rw [String.toList_append, List.mem_append] at hc
  exact hc.elim (h c) (hmore c)

theorem IsNumeral.ofList_of_subset {text : String} {chars : List Char} (h : IsNumeral text)
    (hchars : chars ⊆ text.toList) : IsNumeral (String.ofList chars) := by
  intro c hc
  rw [String.toList_ofList] at hc
  exact h c (hchars hc)

theorem mem_numeralChars_of_isDigit {c : Char} (h : Json.isDigit c = true) :
    c ∈ numeralChars := by
  have hdigits : ((List.range' 48 10).all fun n => numeralChars.contains (Char.ofNat n)) = true :=
    rfl
  rw [← Char.ofNat_toNat c]
  refine List.contains_iff_mem.mp (List.all_eq_true.mp hdigits c.toNat (List.mem_range'_1.mpr ?_))
  simpa [Json.isDigit, Char.le_def, UInt32.le_iff_toNat_le, Nat.lt_succ_iff] using h

theorem isNumeral_nat (n : Nat) : IsNumeral (toString n) := by
  intro c hc
  rw [Nat.toString_eq_repr, Nat.toList_repr] at hc
  exact mem_numeralChars_of_isDigit (Json.isDigit_of_mem_toDigits hc)

theorem isNumeral_int : ∀ i : Int, IsNumeral (toString i)
  | .ofNat n => isNumeral_nat n
  | .negSucc n => by
    have hminus : IsNumeral "-" := isNumeral_of_all rfl
    exact hminus.append (isNumeral_nat (n + 1))

theorem isNumeral_zeros (n : Nat) : IsNumeral ("".pushn '0' n) := by
  intro c hc
  rw [Json.toList_pushn] at hc
  obtain ⟨-, rfl⟩ := List.mem_replicate.mp (by simpa using hc)
  exact List.contains_iff_mem.mp rfl

theorem isNumeral_write (layout : DecimalLayout) (digits : Nat) (exponent : Int) :
    IsNumeral (layout.write digits exponent) := by
  have hdigits := isNumeral_nat digits
  have htake : ∀ n, IsNumeral (String.ofList ((toString digits).toList.take n)) :=
    fun n => hdigits.ofList_of_subset (List.take_subset _ _)
  have hdrop : ∀ n, IsNumeral (String.ofList ((toString digits).toList.drop n)) :=
    fun n => hdigits.ofList_of_subset (List.drop_subset _ _)
  have hpoint : IsNumeral "." := isNumeral_of_all rfl
  simp only [DecimalLayout.write]
  split
  · split
    · exact (hdigits.append (isNumeral_zeros _)).append (isNumeral_of_all rfl)
    · split
      · exact ((htake _).append hpoint).append (hdrop _)
      · exact ((isNumeral_of_all rfl).append (isNumeral_zeros _)).append hdigits
  · refine ((((htake 1).append ?_).append (isNumeral_of_all rfl)).append ?_).append
      (isNumeral_nat _)
    · split
      · exact isNumeral_of_all rfl
      · exact hpoint.append (hdrop 1)
    · split <;> exact isNumeral_of_all rfl

theorem isNumeral_number (n : Number) : IsNumeral n.toText := by
  cases n with
  | int i => exact isNumeral_int i
  | float x =>
    simp only [Number.toText, Double.toText]
    refine IsNumeral.append ?_ ?_
    · split <;> exact isNumeral_of_all rfl
    · split
      · exact isNumeral_of_all rfl
      · exact isNumeral_write _ _ _

/-- The pass is in the middle of a number, or of nothing. -/
def Mode.isNumeric : Mode → Bool
  | .inWord letters => letters.all (· ∈ numeralChars)
  | .between | .afterDot | .inProperty => true
  | .inString | .inEscape | .inName | .atBacktick => false

theorem isConnective_of_numeral {letters : List Char} (h : ∀ c ∈ letters, c ∈ numeralChars) :
    isConnective letters = false := by
  have hupper : ∀ c ∈ numeralChars, c.toUpper ≠ 'A' ∧ c.toUpper ≠ 'O' ∧ c.toUpper ≠ 'X' :=
    forall_numeralChars rfl
  cases letters with
  | nil => rfl
  | cons c letters => simp [isConnective, hupper c (h c List.mem_cons_self)]

theorem Mode.isSettled_of_isNumeric {mode : Mode} (h : mode.isNumeric = true) :
    mode.isSettled = true := by
  cases mode with
  | inWord letters =>
    rw [Mode.isNumeric, List.all_eq_true] at h
    rw [Mode.isSettled, isConnective_of_numeral fun c hc => of_decide_eq_true (h c hc)]
    rfl
  | between | afterDot | inProperty | atBacktick => rfl
  | inString | inEscape | inName => cases h

theorem enter_numeral {c : Char} (h : c ∈ numeralChars) (stack : List Bracket) :
    ∃ mode : Mode, mode.isNumeric = true ∧ Scan.enter stack c = some ⟨mode, stack⟩ := by
  have hkinds : ∀ c ∈ numeralChars, isNamePart c = true ∨ c = '.' ∨ c = '-' ∨ c = '+' :=
    forall_numeralChars rfl
  rcases hkinds c h with hpart | rfl | rfl | rfl
  · refine ⟨.inWord [c], ?_, enter_of_isNamePart hpart stack⟩
    rw [Mode.isNumeric, List.all_cons, decide_eq_true h]
    rfl
  · exact ⟨.afterDot, rfl, rfl⟩
  · exact ⟨.between, rfl, rfl⟩
  · exact ⟨.between, rfl, rfl⟩

theorem step_numeral {mode : Mode} (hmode : mode.isNumeric = true) {c : Char}
    (h : c ∈ numeralChars) (stack : List Bracket) :
    ∃ next : Mode, next.isNumeric = true ∧ Scan.step ⟨mode, stack⟩ c = some ⟨next, stack⟩ := by
  by_cases hapart : Scan.isApart c = true
  · rw [Scan.step_of_isSettled (Mode.isSettled_of_isNumeric hmode) hapart]
    exact enter_numeral h stack
  · have hkinds : ∀ c ∈ numeralChars, Scan.isApart c = true ∨ isNamePart c = true :=
      forall_numeralChars rfl
    have hpart := (hkinds c h).resolve_left hapart
    cases mode with
    | between => exact enter_numeral h stack
    | inWord letters =>
      refine ⟨.inWord (letters ++ [c]), ?_, by rw [Scan.step]; exact if_pos hpart⟩
      rw [Mode.isNumeric, List.all_append, Bool.and_eq_true]
      exact ⟨hmode, by simpa using h⟩
    | afterDot | inProperty => exact ⟨.inProperty, rfl, by rw [Scan.step]; exact if_pos hpart⟩
    | inString | inEscape | inName | atBacktick => cases hmode

theorem run_numeral {mode : Mode} (hmode : mode.isNumeric = true) {text : List Char}
    (h : ∀ c ∈ text, c ∈ numeralChars) : ∃ next : Mode, next.isNumeric = true ∧
      Scan.run ⟨mode, stack⟩ text = some ⟨next, stack⟩ := by
  induction text generalizing mode with
  | nil => exact ⟨mode, hmode, rfl⟩
  | cons c text ih =>
    obtain ⟨middle, hmiddle, hstep⟩ := step_numeral hmode (h c List.mem_cons_self) stack
    rw [Scan.run_cons, hstep]
    exact ih hmiddle fun d hd => h d (List.mem_cons_of_mem c hd)

theorem IsNumeral.ends {text : String} (h : IsNumeral text) : Ends stack stack text := by
  obtain ⟨mode, hmode, hrun⟩ := run_numeral (show Mode.between.isNumeric = true from rfl) h
  exact ⟨mode, Mode.isSettled_of_isNumeric hmode, hrun⟩

/-! ## 2.  Literals -/

theorem ends_null : Ends stack stack (Json.compact .null) := ends_word rfl rfl

theorem ends_bool (b : Bool) : Ends stack stack (Json.compact (.bool b)) := by
  cases b <;> exact ends_word rfl rfl

/-- A list of items that end is a token by itself. -/
theorem leads_listOf {items : List String}
    (h : ∀ item ∈ items, Ends (.square :: stack) (.square :: stack) item) :
    Leads stack stack (listOf items) := by
  have hopening : Leads stack (.square :: stack) "[" := rfl
  have hcomma : Leads (.square :: stack) (.square :: stack) "," := rfl
  have hclosing : Leads (.square :: stack) stack "]" := rfl
  have hitems := ends_intercalate hcomma rfl h
  exact (hopening.append_ends hitems).append_leads hclosing rfl

mutual

theorem ends_compact (value : Json) (stack : List Bracket) :
    Ends stack stack (Json.compact value) := by
  match value with
  | .null => exact ends_null
  | .bool b => exact ends_bool b
  | .number n =>
    rw [Json.compact]
    exact (isNumeral_number n).ends
  | .string s =>
    rw [Json.compact]
    exact (leads_string s).ends
  | .array items =>
    rw [Json.compact]
    exact (leads_listOf (ends_compactItems items _)).ends
  | .object fields =>
    have hopening : Leads stack (.curly :: stack) "\x7b" := rfl
    have hcomma : Leads (.curly :: stack) (.curly :: stack) "," := rfl
    have hclosing : Leads (.curly :: stack) stack "\x7d" := rfl
    have hfields := ends_intercalate hcomma rfl (ends_compactFields fields _)
    rw [Json.compact]
    exact ((hopening.append_ends hfields).append_leads hclosing rfl).ends

theorem ends_compactItems (items : List Json) (stack : List Bracket) :
    ∀ text ∈ Json.compactItems items, Ends stack stack text := by
  match items with
  | [] => simp [Json.compactItems]
  | item :: items =>
    rw [Json.compactItems, List.forall_mem_cons]
    exact ⟨ends_compact item stack, ends_compactItems items stack⟩

theorem ends_compactFields (fields : List (String × Json)) (stack : List Bracket) :
    ∀ text ∈ Json.compactFields fields, Ends stack stack text := by
  match fields with
  | [] => simp [Json.compactFields]
  | (key, value) :: fields =>
    have hcolon : Leads stack stack ":" := rfl
    have hkey : Leads stack stack (Json.quote key ++ ":") := (leads_string key).append_leads hcolon
    rw [Json.compactFields, List.forall_mem_cons]
    exact ⟨hkey.append_ends (ends_compact value stack), ends_compactFields fields stack⟩

end

mutual

/-- The literal of a value is read to its end, and leaves the brackets as they are. -/
theorem ends_literal (value : Json) (stack : List Bracket) :
    Ends stack stack (literal value) := by
  match value with
  | .string s =>
    have hopening : Leads stack (.round :: stack) "datetime(" := rfl
    have hclosing : Leads (.round :: stack) stack ")" := rfl
    rw [literal]
    split
    · exact ((hopening.append_leads (leads_string s)).append_leads hclosing).ends
    · exact (leads_string s).ends
  | .array items =>
    rw [literal]
    exact (leads_listOf (ends_literals items _)).ends
  | .null =>
    rw [literal]
    exact ends_null
  | .bool b =>
    rw [literal]
    exact ends_bool b
  | .number n =>
    rw [literal]
    exact ends_compact (.number n) stack
  | .object fields =>
    rw [literal]
    exact ends_compact (.object fields) stack

theorem ends_literals (items : List Json) (stack : List Bracket) :
    ∀ text ∈ literals items, Ends stack stack text := by
  match items with
  | [] => simp [literals]
  | item :: items =>
    rw [literals, List.forall_mem_cons]
    exact ⟨ends_literal item stack, ends_literals items stack⟩

end

theorem leads_list (items : List Json) : Leads stack stack (list items) :=
  leads_listOf (ends_literals items _)

theorem leads_scalarList (items : List Scalar) : Leads stack stack (scalarList items) := by
  refine leads_listOf fun text htext => ?_
  obtain ⟨item, -, rfl⟩ := List.mem_map.mp htext
  exact ends_literal item.toJson _

theorem leads_dateLiteral (parts : DateParts) : Leads stack stack (dateLiteral parts) := by
  have hopening : Leads stack (.curly :: .round :: stack) "datetime(\x7b" := rfl
  have hcomma : Leads (.curly :: .round :: stack) (.curly :: .round :: stack) ", " := rfl
  have hclosing : Leads (.curly :: .round :: stack) stack "\x7d)" := rfl
  have hparts : ∀ text ∈ parts.map (fun part => part.1.name ++ ": " ++ toString part.2),
      Ends (.curly :: .round :: stack) (.curly :: .round :: stack) text := by
    intro text htext
    obtain ⟨part, -, rfl⟩ := List.mem_map.mp htext
    have hname : Leads (.curly :: .round :: stack) (.curly :: .round :: stack)
        (part.1.name ++ ": ") := by
      cases part.1 <;> rfl
    exact hname.append_ends (isNumeral_int part.2).ends
  exact (hopening.append_ends (ends_intercalate hcomma rfl hparts)).append_leads
    hclosing rfl

theorem ends_operandText (options : Options) (operand : Operand) :
    Ends stack stack (operandText options operand) := by
  match operand with
  | .scalar .null => exact (leads_string options.nullSentinel).ends
  | .scalar (.bool b) => exact ends_literal (.bool b) stack
  | .scalar (.number n) => exact ends_literal (.number n) stack
  | .scalar (.string s) => exact ends_literal (.string s) stack
  | .date parts => exact (leads_dateLiteral parts).ends

/-- Inside of brackets, the parts of a date-time may be connected. -/
theorem ends_partsMatch (parts : DateParts) (bracket : Bracket) :
    Ends (bracket :: stack) (bracket :: stack) (partsMatch parts) := by
  have hand : Leads (bracket :: stack) (bracket :: stack) " AND " := rfl
  refine ends_intercalate hand rfl fun text htext => ?_
  obtain ⟨part, -, rfl⟩ := List.mem_map.mp htext
  have hname : Leads (bracket :: stack) (bracket :: stack)
      ("value." ++ part.1.name ++ " = ") := by
    cases part.1 <;> rfl
  exact hname.append_ends (isNumeral_int part.2).ends

end GraphSearch.Cypher
