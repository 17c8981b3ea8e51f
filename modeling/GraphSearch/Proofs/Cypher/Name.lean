import GraphSearch.Cypher.Name
/-!
# Names are told apart

Different names are written differently, whether they are plain or stand between backticks, and
only a plain name is written as itself.  A name between backticks can be read back from any text
that begins with it, since the backtick that ends it is the first one that stands alone.

* `quoted_injective`, `name_injective`: what is written determines the name;
* `isPlain_of_length_name_le`, `name_eq_self_iff`: the names that need no backticks are those that
  are not written longer than they are;
* `readQuoted?_eq_some_iff`: a name is read back from what it is quoted as, and from nothing else;
* `quoted_append_inj`: so what is quoted and what follows it are told apart.
-/

namespace GraphSearch.Cypher

/-! ## 1.  Between backticks -/

theorem doubleBackticks_cons (c : Char) (rest : List Char) :
    doubleBackticks (c :: rest) =
      (if c = '`' then ['`', '`'] else [c]) ++ doubleBackticks rest := by
  by_cases hc : c = '`'
  · subst hc
    rfl
  · rw [if_neg hc, doubleBackticks]
    · rfl
    · exact hc

theorem doubleBackticks_injective {text other : List Char}
    (h : doubleBackticks text = doubleBackticks other) : text = other := by
  induction text generalizing other with
  | nil =>
    cases other with
    | nil => rfl
    | cons d other =>
      rw [doubleBackticks_cons] at h
      split at h <;> cases h
  | cons c text ih =>
    cases other with
    | nil =>
      rw [doubleBackticks_cons] at h
      split at h <;> cases h
    | cons d other =>
      rw [doubleBackticks_cons, doubleBackticks_cons] at h
      by_cases hc : c = '`' <;> by_cases hd : d = '`'
      · rw [if_pos hc, if_pos hd] at h
        rw [hc, hd, ih (List.append_cancel_left h)]
      · rw [if_pos hc, if_neg hd] at h
        exact absurd (List.head_eq_of_cons_eq h).symm hd
      · rw [if_neg hc, if_pos hd] at h
        exact absurd (List.head_eq_of_cons_eq h) hc
      · rw [if_neg hc, if_neg hd] at h
        obtain ⟨rfl, htail⟩ := List.cons.inj h
        rw [ih htail]

theorem le_length_doubleBackticks (text : List Char) :
    text.length ≤ (doubleBackticks text).length := by
  induction text with
  | nil => exact Nat.le_refl _
  | cons c text ih =>
    rw [doubleBackticks_cons, List.length_append, List.length_cons]
    split <;> simp only [List.length_cons, List.length_nil] <;> omega

@[simp] theorem toList_quoted (raw : String) :
    (quoted raw).toList = '`' :: (doubleBackticks raw.toList ++ ['`']) :=
  String.toList_ofList

theorem quoted_injective {raw other : String} (h : quoted raw = quoted other) : raw = other := by
  have hchars := congrArg String.toList h
  rw [toList_quoted, toList_quoted, List.cons.injEq, List.append_cancel_right_eq] at hchars
  exact String.toList_injective (doubleBackticks_injective hchars.2)

/-! ## 2.  Names -/

/-- A name between backticks is no plain name. -/
theorem isPlain_quoted (raw : String) : isPlain (quoted raw) = false := by
  rw [isPlain, toList_quoted]
  rfl

theorem name_of_isPlain {raw : String} (h : isPlain raw = true) : name raw = raw := if_pos h

theorem name_of_not_isPlain {raw : String} (h : isPlain raw = false) : name raw = quoted raw :=
  if_neg (by rw [h]; exact Bool.false_ne_true)

theorem name_injective {raw other : String} (h : name raw = name other) : raw = other := by
  cases hraw : isPlain raw <;> cases hother : isPlain other
  · rw [name_of_not_isPlain hraw, name_of_not_isPlain hother] at h
    exact quoted_injective h
  · rw [name_of_not_isPlain hraw, name_of_isPlain hother] at h
    rw [← h, isPlain_quoted] at hother
    cases hother
  · rw [name_of_isPlain hraw, name_of_not_isPlain hother] at h
    rw [h, isPlain_quoted] at hraw
    cases hraw
  · rwa [name_of_isPlain hraw, name_of_isPlain hother] at h

/-- Quoting makes a name longer. -/
theorem length_lt_length_quoted (raw : String) : raw.length < (quoted raw).length := by
  have hle := le_length_doubleBackticks raw.toList
  rw [← String.length_toList, ← String.length_toList, toList_quoted, List.length_cons,
    List.length_append]
  omega

theorem length_le_length_name (raw : String) : raw.length ≤ (name raw).length := by
  cases hplain : isPlain raw with
  | true => exact Nat.le_of_eq (congrArg String.length (name_of_isPlain hplain).symm)
  | false =>
    rw [name_of_not_isPlain hplain]
    exact Nat.le_of_lt (length_lt_length_quoted raw)

/-- Only plain names are written as long as they are. -/
theorem isPlain_of_length_name_le {raw : String} (h : (name raw).length ≤ raw.length) :
    isPlain raw = true := by
  cases hplain : isPlain raw with
  | true => rfl
  | false =>
    rw [name_of_not_isPlain hplain] at h
    exact absurd (length_lt_length_quoted raw) (Nat.not_lt.mpr h)

/-- Only plain names are written as they are. -/
theorem name_eq_self_iff {raw : String} : name raw = raw ↔ isPlain raw = true :=
  ⟨fun h => isPlain_of_length_name_le (Nat.le_of_eq (congrArg String.length h)), name_of_isPlain⟩

/-! ## 3.  Reading a name back -/

/-- Reads a quoted name from behind its first backtick on: two backticks are one of the name, and
one that no other follows ends it. -/
def readToBacktick : List Char → Option (List Char × List Char)
  | [] => none
  | '`' :: '`' :: text => (readToBacktick text).map fun (name, rest) => ('`' :: name, rest)
  | '`' :: rest => some ([], rest)
  | c :: text => (readToBacktick text).map fun (name, rest) => (c :: name, rest)

/-- Reads a quoted name, and gives what follows it. -/
def readQuoted? (text : String) : Option (String × String) :=
  match text.toList with
  | '`' :: chars =>
    (readToBacktick chars).map fun (name, rest) => (String.ofList name, String.ofList rest)
  | _ => none

theorem readToBacktick_doubleBackticks {rest : List Char} (hrest : rest.head? ≠ some '`')
    (name : List Char) :
    readToBacktick (doubleBackticks name ++ '`' :: rest) = some (name, rest) := by
  induction name with
  | nil =>
    cases rest with
    | nil => rfl
    | cons c rest =>
      have hc : c ≠ '`' := fun heq => hrest (congrArg some heq)
      rw [doubleBackticks, List.nil_append, readToBacktick]
      rintro text ⟨⟩
      exact hc rfl
  | cons c name ih =>
    rw [doubleBackticks_cons, List.append_assoc]
    by_cases hc : c = '`'
    · subst hc
      rw [if_pos rfl, List.cons_append, List.cons_append, readToBacktick, List.nil_append, ih]
      rfl
    · rw [if_neg hc, List.cons_append, List.nil_append, readToBacktick, ih]
      · rfl
      · rintro text rfl
        exact absurd rfl hc
      · rintro rfl
        exact absurd rfl hc

theorem eq_of_readToBacktick {text name rest : List Char}
    (h : readToBacktick text = some (name, rest)) :
    text = doubleBackticks name ++ '`' :: rest ∧ rest.head? ≠ some '`' := by
  induction text using readToBacktick.induct generalizing name with
  | case1 => cases h
  | case2 text ih =>
    rw [readToBacktick, Option.map_eq_some_iff] at h
    obtain ⟨⟨inner, rest'⟩, hread, heq⟩ := h
    obtain ⟨rfl, rfl⟩ := Prod.mk.inj heq
    obtain ⟨rfl, hrest⟩ := ih hread
    exact ⟨by rw [doubleBackticks]; rfl, hrest⟩
  | case3 rest' hrest =>
    rw [readToBacktick.eq_3 _ hrest] at h
    obtain ⟨rfl, rfl⟩ := Prod.mk.inj (Option.some.inj h)
    refine ⟨rfl, fun hhead => ?_⟩
    obtain ⟨tail, rfl⟩ := List.head?_eq_some_iff.mp hhead
    exact hrest tail rfl
  | case4 c text h₁ h₂ ih =>
    rw [readToBacktick.eq_4 _ _ h₁ h₂, Option.map_eq_some_iff] at h
    obtain ⟨⟨inner, rest'⟩, hread, heq⟩ := h
    obtain ⟨rfl, rfl⟩ := Prod.mk.inj heq
    obtain ⟨rfl, hrest⟩ := ih hread
    rw [doubleBackticks_cons, if_neg h₂]
    exact ⟨rfl, hrest⟩

/-- A name is read from what it is quoted as, and from nothing else. -/
theorem readQuoted?_eq_some_iff {text raw rest : String} :
    readQuoted? text = some (raw, rest) ↔
      text = quoted raw ++ rest ∧ rest.toList.head? ≠ some '`' := by
  constructor
  · intro h
    unfold readQuoted? at h
    split at h
    case h_2 => cases h
    case h_1 chars hchars =>
      obtain ⟨⟨name, rest'⟩, hread, heq⟩ := Option.map_eq_some_iff.mp h
      obtain ⟨rfl, rfl⟩ := Prod.mk.inj heq
      obtain ⟨rfl, hrest⟩ := eq_of_readToBacktick hread
      refine ⟨String.toList_injective ?_, by rwa [String.toList_ofList]⟩
      simp [hchars]
  · rintro ⟨rfl, hrest⟩
    have hchars : (quoted raw ++ rest).toList =
        '`' :: (doubleBackticks raw.toList ++ '`' :: rest.toList) := by simp
    rw [readQuoted?, hchars]
    simp only [readToBacktick_doubleBackticks hrest, Option.map_some, String.ofList_toList]

/-- Where no backtick follows, what is quoted and what follows it are determined. -/
theorem quoted_append_inj {raw other rest more : String} (hrest : rest.toList.head? ≠ some '`')
    (hmore : more.toList.head? ≠ some '`') (h : quoted raw ++ rest = quoted other ++ more) :
    raw = other ∧ rest = more := by
  have hread : readQuoted? (quoted raw ++ rest) = some (raw, rest) :=
    readQuoted?_eq_some_iff.mpr ⟨rfl, hrest⟩
  rw [h, readQuoted?_eq_some_iff.mpr ⟨rfl, hmore⟩] at hread
  obtain ⟨rfl, rfl⟩ := Prod.mk.inj (Option.some.inj hread)
  exact ⟨rfl, rfl⟩

end GraphSearch.Cypher
