import GraphSearch.Proofs.Cypher.Instant
import GraphSearch.Proofs.Cypher.Membership
import GraphSearch.Proofs.Cypher.Name
import GraphSearch.Proofs.Json.RoundTrip
import GraphSearch.Proofs.Matching.WellFormed
/-!
# How labels are selected

A single label stands in the root pattern, as a quoted name; several labels are listed in the first
condition after the one that the root is there.  Either text can be read back to the label it stands
for (`quoted_and_string_denote`), so that it is the same label whether it is asked for alone or with
others.

A list of labels is written like any list of values, though, and a label that is a date-time becomes
a call in it.  Labels are selected by their names just when they are not several with a date-time
among them (`selectsByName_iff`).
-/

namespace GraphSearch.Matching

open Cypher Unicode

/-! ## 1.  Texts of labels -/

/-- A label is read back from the quoted name and from the string literal that are written for it. -/
theorem quoted_and_string_denote (label : String) :
    readQuoted? (quoted label) = some (label, "") ∧
      Json.parse (string label) = .ok (.string label) := by
  constructor
  · refine readQuoted?_eq_some_iff.mpr ⟨String.append_empty.symm, ?_⟩
    simp
  · have hparse : Json.parse ((Json.string label).pretty ++ "") = .ok (.string label) :=
      (Json.parse_pretty_iff rfl rfl (by simp)).mpr ⟨rfl, Nat.zero_le _⟩
    rwa [String.append_empty] at hparse

theorem literals_map_string (labels : List String) :
    literals (labels.map Json.string) = labels.map fun label => literal (.string label) := by
  induction labels with
  | nil => rfl
  | cons label labels ih =>
    rw [List.map_cons, literals, ih]
    rfl

/-- A call and a string literal differ at once. -/
theorem call_append_ne (label rest rest' : String) :
    "datetime(" ++ string label ++ ")" ++ rest ≠ string label ++ rest' := by
  intro heq
  have hhead := congrArg (fun text => text.toList.head?) heq
  simp [string, Json.quote] at hhead

/-- Labels are listed as string literals when none of them is a date-time. -/
theorem listOf_literals_eq_iff {labels : List String} :
    listOf (labels.map fun label => literal (.string label)) = listOf (labels.map string) ↔
      ∀ label ∈ labels, label.toList ∉ dateTimes isDecimalDigit := by
  rw [listOf_eq_iff, intercalate_map_eq_iff]
  · simp only [literal_eq_string_iff]
  · intro label _
    by_cases hinstant : label.toList ∈ dateTimes isDecimalDigit
    · rw [literal_eq_call_iff.mpr hinstant]
      exact .inr (call_append_ne label)
    · exact .inl (literal_eq_string_iff.mpr hinstant)

/-! ## 2.  Selections -/

/-- The root pattern with one label. -/
def labelledPattern (options : Options) (label : String) : String :=
  "(" ++ options.rootAlias ++ ":" ++ options.recordLabel ++ ":" ++ quoted label ++ ")"

/-- The `WHERE` clause of a selection with a test for labels that are listed as these texts. -/
def labelledClause (options : Options) (selection : Selection) (texts : List String) : String :=
  "WHERE " ++ joinAnd (("(" ++ options.rootAlias ++ " IS NOT NULL)")
    :: ("any(label IN labels(" ++ options.rootAlias ++ ") WHERE label IN " ++ listOf texts ++ ")")
    :: selection.terms.map Formula.text)

/-- Labels are selected by their names: one label stands in the root pattern as a quoted name, and
several are listed as string literals. -/
structure SelectsByName (options : Options) (labels : List String) (selection : Selection) :
    Prop where
  single : ∀ label, labels = [label] → selection.rootPattern = labelledPattern options label
  several : 1 < labels.length →
    selection.whereClause = labelledClause options selection (labels.map string)

section

variable {options : Options} {labels : List String} {selection : Selection}

theorem labelledClause_eq_iff {texts others : List String} :
    labelledClause options selection texts = labelledClause options selection others ↔
      listOf texts = listOf others := by
  have hclause : ∀ items, labelledClause options selection items =
      "WHERE " ++ ("(" ++ options.rootAlias ++ " IS NOT NULL)" ++ " AND " ++
        ("any(label IN labels(" ++ options.rootAlias ++ ") WHERE label IN " ++ listOf items ++ ")" ++
          " AND ".intercalate ("" :: selection.terms.map Formula.text))) := by
    intro items
    rw [← intercalate_cons, ← String.intercalate_cons_cons]
    rfl
  simp only [hclause, String.append_right_inj, String.append_left_inj]

variable {criteria : Json} {order : Option SortOrder} {skip limit : Option Nat}

theorem rootPattern_of_single {label : String}
    (h : Selection.ofCriteria options criteria [label] order skip limit = .ok selection) :
    selection.rootPattern = labelledPattern options label := by
  obtain ⟨halias, hrecord, hlabels⟩ := ofCriteria_given h
  simp only [Selection.rootPattern, hlabels, halias, hrecord, labelledPattern, String.append_assoc]

theorem whereClause_of_several (hseveral : 1 < labels.length)
    (h : Selection.ofCriteria options criteria labels order skip limit = .ok selection) :
    selection.whereClause =
      labelledClause options selection (labels.map fun label => literal (.string label)) := by
  obtain ⟨halias, -, hlabels⟩ := ofCriteria_given h
  rw [Selection.whereClause, Selection.conditions, Selection.labelTests, hlabels, if_pos hseveral,
    halias, list, literals_map_string]
  rfl

/-- Labels are selected by their names unless a date-time is listed. -/
theorem selectsByName_iff
    (h : Selection.ofCriteria options criteria labels order skip limit = .ok selection) :
    SelectsByName options labels selection ↔
      (1 < labels.length → ∀ label ∈ labels, label.toList ∉ dateTimes isDecimalDigit) := by
  constructor
  · intro hselects hseveral
    have hclause := hselects.several hseveral
    rw [whereClause_of_several hseveral h, labelledClause_eq_iff] at hclause
    exact listOf_literals_eq_iff.mp hclause
  · intro hnames
    refine ⟨?_, fun hseveral => ?_⟩
    · rintro label rfl
      exact rootPattern_of_single h
    · rw [whereClause_of_several hseveral h, labelledClause_eq_iff]
      exact listOf_literals_eq_iff.mpr (hnames hseveral)

/-- **Labels are names, except where a date-time is listed.**  Whatever the labels and the criteria,
one label is the quoted name in the root pattern, and of several the first condition behind that on
the root lists the string literals in order, but calls for those that are date-times; and name and
literal both read back as the label. -/
theorem ofCriteria_labels
    (h : Selection.ofCriteria options criteria labels order skip limit = .ok selection) :
    (SelectsByName options labels selection ↔
      (1 < labels.length → ∀ label ∈ labels, label.toList ∉ dateTimes isDecimalDigit)) ∧
    (∀ label, labels = [label] → selection.rootPattern = labelledPattern options label) ∧
    (1 < labels.length → ∃ texts, selection.whereClause = labelledClause options selection texts ∧
      List.Forall₂ (fun label text =>
        (label.toList ∉ dateTimes isDecimalDigit → text = string label) ∧
        (label.toList ∈ dateTimes isDecimalDigit → text = "datetime(" ++ string label ++ ")"))
        labels texts) ∧
    ∀ label ∈ labels, readQuoted? (quoted label) = some (label, "") ∧
      Json.parse (string label) = .ok (.string label) := by
  refine ⟨selectsByName_iff h, ?_, fun hseveral => ?_, fun label _ => quoted_and_string_denote label⟩
  · rintro label rfl
    exact rootPattern_of_single h
  · refine ⟨_, whereClause_of_several hseveral h, ?_⟩
    rw [List.forall₂_map_right_iff, List.forall₂_same]
    exact fun label _ => ⟨literal_eq_string_iff.mpr, literal_eq_call_iff.mpr⟩

end

/-- Labels with the marks that names and literals end with, and a date, which is no date-time. -/
def hostileLabels : List String := ["a\"]) OR (", "`b", "2024-03-01"]

theorem ofCriteria_labels_hostile : ∃ selection,
    Selection.ofCriteria {} (.object []) hostileLabels none none none = .ok selection ∧
      selection.whereClause = "WHERE (record IS NOT NULL) AND any(label IN labels(record) " ++
        "WHERE label IN [\"a\\\"]) OR (\",\"`b\",\"2024-03-01\"])" ∧
      SelectsByName {} hostileLabels selection := by
  obtain ⟨selection, hselection⟩ := Results.exists_eq_ok
    (show (Selection.ofCriteria {} (.object []) hostileLabels none none none).isOk = true from rfl)
  have hnames : SelectsByName {} hostileLabels selection := by
    refine (ofCriteria_labels hselection).1.mpr fun _ => ?_
    simp only [hostileLabels, ← isInstant_iff, List.forall_mem_cons]
    exact ⟨by decide, by decide, by decide, List.forall_mem_nil _⟩
  refine ⟨selection, hselection, ?_, hnames⟩
  obtain rfl := Except.ok.inj hselection
  rfl

/-- A label that is a date-time, and another one. -/
def instantLabels : List String := ["2024-03-01T10:00Z", "B"]

/-- Alone, the first label is the name of records; beside the other one it is a point in time, which
no name of a record is equal to. -/
theorem ofCriteria_misreads_label : ∃ selection,
    Selection.ofCriteria {} (.object []) instantLabels none none none = .ok selection ∧
      selection.whereClause = "WHERE (record IS NOT NULL) AND any(label IN labels(record) " ++
        "WHERE label IN [datetime(\"2024-03-01T10:00Z\"),\"B\"])" ∧
      ¬ SelectsByName {} instantLabels selection := by
  obtain ⟨selection, hselection⟩ := Results.exists_eq_ok
    (show (Selection.ofCriteria {} (.object []) instantLabels none none none).isOk = true from rfl)
  have hnames : ¬ SelectsByName {} instantLabels selection := by
    intro hselects
    have hnames := (selectsByName_iff hselection).mp hselects (by decide)
    exact hnames _ List.mem_cons_self (isInstant_iff.mp rfl)
  refine ⟨selection, hselection, ?_, hnames⟩
  obtain rfl := Except.ok.inj hselection
  rfl

end GraphSearch.Matching
