import GraphSearch.Proofs.Json.Numeral
import GraphSearch.Proofs.Json.Reader
/-!
# What a text denotes

A value that was read is proper: the keys of its objects are distinct, because the reader writes
them into a table, and its integers fit 64 bits, because all others are read as doubles.  And it
is nested no deeper than the reader goes.
-/

namespace GraphSearch.Json

/-- A proper value that is nested at most `bound` deep. -/
def IsWithin (bound : Nat) (value : Json) : Prop := value.isProper = true ∧ value.depth ≤ bound

/-- Distinct keys, with proper values that are nested at most `bound` deep. -/
def AreWithin (bound : Nat) (fields : List (String × Json)) : Prop :=
  (Table.keys fields).Nodup ∧ ∀ field ∈ fields, IsWithin bound field.2

variable {bound : Nat} {fields : List (String × Json)}

theorem isWithin_array {items : List Json} :
    IsWithin (bound + 1) (.array items) ↔ ∀ item ∈ items, IsWithin bound item := by
  simp only [IsWithin, isProper, depth, areProper_iff, Nat.add_le_add_iff_right,
    depthItems_le_iff]
  exact ⟨fun h item hitem => ⟨h.1 item hitem, h.2 item hitem⟩,
    fun h => ⟨fun item hitem => (h item hitem).1, fun item hitem => (h item hitem).2⟩⟩

theorem isWithin_object : IsWithin (bound + 1) (.object fields) ↔ AreWithin bound fields := by
  simp only [IsWithin, AreWithin, isProper, depth, areProperFields_iff, Nat.add_le_add_iff_right,
    depthFields_le_iff]
  exact ⟨fun h => ⟨h.1.1, fun field hfield => ⟨h.1.2 field hfield, h.2 field hfield⟩⟩,
    fun h => ⟨⟨h.1, fun field hfield => (h.2 field hfield).1⟩,
      fun field hfield => (h.2 field hfield).2⟩⟩

/-- An entry that is written keeps the keys apart. -/
theorem AreWithin.insert (h : AreWithin bound fields) {key : String} {value : Json}
    (hvalue : IsWithin bound value) : AreWithin bound (Table.insert key value fields) := by
  obtain ⟨hnodup, hfields⟩ := h
  constructor
  · rw [Table.keys_insert]
    split
    case isTrue => exact hnodup
    case isFalse hkey =>
      rw [List.nodup_append]
      refine ⟨hnodup, List.pairwise_singleton _ key, ?_⟩
      intro k hk other hother heq
      obtain rfl : other = key := List.mem_singleton.mp hother
      exact hkey (heq ▸ hk)
  · rintro ⟨k, v⟩ hfield
    obtain rfl | hmem := Table.mem_insert hfield
    · exact hvalue
    · exact hfields (k, v) hmem

/-! ## 1.  Arrays and objects -/

section

variable {item : Reader Json}

theorem isWithin_of_readMoreItems {text rest : List Char} {values : List Json}
    (hitem : ∀ {text value rest}, Reads item text value rest → IsWithin bound value)
    (h : Reads (readMoreItems item) text values rest) : ∀ value ∈ values, IsWithin bound value := by
  induction values generalizing text with
  | nil => exact List.forall_mem_nil _
  | cons value values ih =>
    obtain ⟨-, ⟨⟩⟩ | ⟨_, _, _, _, _, _, _, _, _, hvalue, hmore, ⟨⟩⟩ := readMoreItems_reads_iff.mp h
    exact List.forall_mem_cons.mpr ⟨hitem hvalue, ih hmore⟩

theorem isWithin_of_readItems {text rest : List Char} {values : List Json}
    (hitem : ∀ {text value rest}, Reads item text value rest → IsWithin bound value)
    (h : Reads (readItems item) text values rest) : ∀ value ∈ values, IsWithin bound value := by
  obtain ⟨-, rfl⟩ | ⟨_, _, _, _, _, _, _, hvalue, hmore, rfl⟩ := readItems_reads_iff.mp h
  · exact List.forall_mem_nil _
  · exact List.forall_mem_cons.mpr ⟨hitem hvalue, isWithin_of_readMoreItems hitem hmore⟩

theorem isWithin_of_readEntry {text rest : List Char} {entry : String × Json}
    (hitem : ∀ {text value rest}, Reads item text value rest → IsWithin bound value)
    (h : Reads (readEntry item) text entry rest) : IsWithin bound entry.2 := by
  obtain ⟨_, _, _, _, _, _, hvalue⟩ := readEntry_reads_iff.mp h
  exact hitem hvalue

theorem areWithin_of_readMoreEntries {text rest : List Char}
    {fields result : List (String × Json)}
    (hitem : ∀ {text value rest}, Reads item text value rest → IsWithin bound value)
    (hfields : AreWithin bound fields) (h : Reads (readMoreEntries item fields) text result rest) :
    AreWithin bound result := by
  obtain ⟨-, rfl⟩ | ⟨after, entry, middle, hcomma, hentry, hmore⟩ :=
    readMoreEntries_reads_iff.mp h
  · exact hfields
  · have hlt : middle.length < text.length :=
      Nat.lt_trans (Nat.lt_of_lt_of_le hentry.lt (length_skipBlanks_le after))
        (lt_of_skipBlanks hcomma)
    exact areWithin_of_readMoreEntries hitem
      (hfields.insert (isWithin_of_readEntry hitem hentry)) hmore
termination_by text.length

theorem areWithin_of_readEntries {text rest : List Char} {result : List (String × Json)}
    (hitem : ∀ {text value rest}, Reads item text value rest → IsWithin bound value)
    (h : Reads (readEntries item) text result rest) : AreWithin bound result := by
  obtain ⟨-, rfl⟩ | ⟨entry, middle, hentry, hmore⟩ := readEntries_reads_iff.mp h
  · exact ⟨List.nodup_nil, List.forall_mem_nil _⟩
  · have hfirst : AreWithin bound [entry] := by
      refine ⟨List.pairwise_singleton (· ≠ ·) entry.1, ?_⟩
      intro field hfield
      obtain rfl : field = entry := List.mem_singleton.mp hfield
      exact isWithin_of_readEntry hitem hentry
    exact areWithin_of_readMoreEntries hitem hfirst hmore

end

/-! ## 2.  Values -/

/-- A token is proper, and is nested one level deeper than what its containers hold. -/
theorem Token.isWithin {inner : Option (Reader Json)} {text rest : List Char} {value : Json}
    (h : Token inner text value rest)
    (hinner : ∀ read, inner = some read → ∃ below, bound = below + 1 ∧
      ∀ {text value rest}, Reads read text value rest → IsWithin below value) :
    IsWithin bound value := by
  cases h with
  | null => exact ⟨rfl, Nat.zero_le _⟩
  | yes => exact ⟨rfl, Nat.zero_le _⟩
  | no => exact ⟨rfl, Nat.zero_le _⟩
  | string => exact ⟨rfl, Nat.zero_le _⟩
  | number _ hn => exact ⟨readNumeral_isProper hn, Nat.zero_le _⟩
  | array hread hitems =>
    obtain ⟨below, rfl, hitem⟩ := hinner _ hread
    exact isWithin_array.mpr (isWithin_of_readItems hitem hitems)
  | object hread hfields =>
    obtain ⟨below, rfl, hitem⟩ := hinner _ hread
    exact isWithin_object.mpr (areWithin_of_readEntries hitem hfields)

/-- What is read at a depth is proper, and is nested no deeper. -/
theorem isWithin_of_readValue {depth : Nat} {text rest : List Char} {value : Json}
    (h : Reads (readValue depth) text value rest) : IsWithin depth value := by
  induction depth generalizing text value rest with
  | zero =>
    refine (readValue_reads_iff.mp h).isWithin ?_
    rintro read ⟨⟩
  | succ depth ih =>
    refine (readValue_reads_iff.mp h).isWithin ?_
    rintro read ⟨⟩
    exact ⟨depth, rfl, ih⟩

theorem isWithin_of_parse {source : String} {value : Json} (h : parse source = .ok value) :
    IsWithin maxDepth value := by
  obtain ⟨_, hvalue, -⟩ := parse_eq_ok_iff.mp h
  exact isWithin_of_readValue hvalue

end GraphSearch.Json
