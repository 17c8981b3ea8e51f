import GraphSearch.Proofs.Json.Denoted
import GraphSearch.Proofs.Json.Text
/-!
# Pretty text reads back

The pretty text of a proper value whose numbers read back is read as that value, unless it is
nested deeper than the reader goes, and then it is refused (`parse_pretty_iff`).

The text of a container is one item after the other, each after a separator that starts with a
comma, and then the closing bracket after a line break (`itemsText`).  So what follows an item is
known to end a numeral, and the induction over the value goes through with nothing asked of the
text that follows but that (`token_prettyAt`).
-/

namespace GraphSearch.Json

/-! ## 1.  Numbers that read back -/

mutual

/-- Every number of the value, at any depth, reads back from its own text. -/
def readsBack : Json → Bool
  | .null | .bool _ | .string _ => true
  | .number n => n.readsBack
  | .array items => allReadBack items
  | .object fields => fieldsReadBack fields

def allReadBack : List Json → Bool
  | [] => true
  | item :: items => readsBack item && allReadBack items

def fieldsReadBack : List (String × Json) → Bool
  | [] => true
  | (_, value) :: fields => readsBack value && fieldsReadBack fields

end

theorem allReadBack_iff {items : List Json} :
    allReadBack items = true ↔ ∀ item ∈ items, item.readsBack = true := by
  induction items with
  | nil => simp [allReadBack]
  | cons item items ih => simp [allReadBack, ih]

theorem fieldsReadBack_iff {fields : List (String × Json)} :
    fieldsReadBack fields = true ↔ ∀ field ∈ fields, field.2.readsBack = true := by
  induction fields with
  | nil => simp [fieldsReadBack]
  | cons field fields ih => simp [fieldsReadBack, ih]

/-! ## 2.  Blanks -/

theorem toList_pushn (s : String) (c : Char) (n : Nat) :
    (s.pushn c n).toList = s.toList ++ List.replicate n c := by
  rw [String.pushn_eq_repeat_push]
  induction n with
  | zero => simp [Nat.repeat]
  | succ n ih => rw [Nat.repeat, String.toList_push, ih, List.append_assoc, ← List.replicate_succ']

theorem toList_lineBreak (level : Nat) :
    (lineBreak level).toList = '\n' :: List.replicate (2 * level) ' ' := by
  rw [lineBreak, toList_pushn]
  rfl

theorem isBlank_lineBreak (level : Nat) : ∀ c ∈ (lineBreak level).toList, isBlank c = true := by
  intro c hc
  rw [toList_lineBreak] at hc
  obtain rfl | hc := List.mem_cons.mp hc
  · rfl
  · rw [List.eq_of_mem_replicate hc]
    rfl

theorem skipBlanks_append {blanks text : List Char} (h : ∀ c ∈ blanks, isBlank c = true) :
    skipBlanks (blanks ++ text) = skipBlanks text := by
  rw [skipBlanks, List.dropWhile_append_of_pos h, skipBlanks]

theorem skipBlanks_cons {c : Char} (h : isBlank c = false) (text : List Char) :
    skipBlanks (c :: text) = c :: text := by
  rw [skipBlanks, List.dropWhile_cons_of_neg (by simp [h])]

/-- A token starts with a character that is no blank and closes nothing. -/
theorem Token.head {inner : Option (Reader Json)} {text rest : List Char} {value : Json}
    (h : Token inner text value rest) :
    ∃ c left, text = c :: left ∧ isBlank c = false ∧ c ≠ ']' := by
  cases h with
  | @number c _ _ _ hc =>
    refine ⟨c, _, rfl, ?_, ?_⟩
    · cases hblank : isBlank c with
      | false => rfl
      | true =>
        simp only [isBlank, Bool.or_eq_true, decide_eq_true_eq] at hblank
        obtain ((rfl | rfl) | rfl) | rfl := hblank <;> exact absurd hc (by decide)
    · rintro rfl
      exact absurd hc (by decide)
  | null => exact ⟨_, _, rfl, rfl, by decide⟩
  | yes => exact ⟨_, _, rfl, rfl, by decide⟩
  | no => exact ⟨_, _, rfl, rfl, by decide⟩
  | string => exact ⟨_, _, rfl, rfl, by decide⟩
  | array => exact ⟨_, _, rfl, rfl, by decide⟩
  | object => exact ⟨_, _, rfl, rfl, by decide⟩

/-! ## 3.  Containers -/

/-- Items, each after a separator, and what stands after the last one. -/
def itemsText (separator closing : List Char) : List String → List Char
  | [] => closing
  | item :: items => separator ++ (item.toList ++ itemsText separator closing items)

theorem toList_intercalate_append (separator : String) (item : String) (items : List String)
    (closing : List Char) :
    (separator.intercalate (item :: items)).toList ++ closing =
      item.toList ++ itemsText separator.toList closing items := by
  induction items generalizing item with
  | nil => rw [String.intercalate_singleton, itemsText]
  | cons next items ih =>
    rw [String.intercalate_cons_cons, String.toList_append, String.toList_append,
      List.append_assoc, List.append_assoc, ih, itemsText]

/-- What stands between the items of a container inside `level`. -/
def separatorAt (level : Nat) : List Char := ',' :: (lineBreak (level + 1)).toList

theorem toList_block_nil {opening closing : String} {o c : Char} (ho : opening.toList = [o])
    (hc : closing.toList = [c]) (level : Nat) (rest : List Char) :
    (block opening closing level []).toList ++ rest = o :: c :: rest := by
  simp only [block, List.isEmpty_nil, if_true, String.toList_append, ho, hc]
  rfl

theorem toList_block_cons {opening closing : String} {o c : Char} (ho : opening.toList = [o])
    (hc : closing.toList = [c]) (level : Nat) (item : String) (items : List String)
    (rest : List Char) :
    (block opening closing level (item :: items)).toList ++ rest =
      o :: ((lineBreak (level + 1)).toList ++ (item.toList ++
        itemsText (separatorAt level) ((lineBreak level).toList ++ c :: rest) items)) := by
  have hseparator : ("," ++ lineBreak (level + 1)).toList = separatorAt level := by
    rw [String.toList_append]
    rfl
  rw [block, if_neg (by simp)]
  simp only [String.toList_append, List.append_assoc, ho, hc, List.cons_append, List.nil_append]
  rw [toList_intercalate_append, String.toList_append, ← String.toList_append, hseparator]

theorem endsNumeral_itemsText (level : Nat) (closing : List Char) (items : List String) :
    endsNumeral (itemsText (separatorAt level) ((lineBreak level).toList ++ closing) items) =
      true := by
  cases items with
  | nil => rw [itemsText, toList_lineBreak]; rfl
  | cons item items => rfl

/-- Behind blanks, a token is what is found first. -/
theorem Token.skipBlanks_eq {inner : Option (Reader Json)} {blanks text rest : List Char}
    {value : Json} (h : Token inner text value rest) (hblanks : ∀ c ∈ blanks, isBlank c = true) :
    ∃ c left, skipBlanks (blanks ++ text) = c :: left ∧ c ≠ ']' := by
  obtain ⟨c, left, rfl, hc, hclose⟩ := h.head
  exact ⟨c, left, by rw [skipBlanks_append hblanks, skipBlanks_cons hc], hclose⟩

/-- Behind blanks, a token is read as it is alone. -/
theorem Token.readsBehind {depth : Nat} {blanks text rest : List Char} {value : Json}
    (h : Token (containers depth) text value rest) (hblanks : ∀ c ∈ blanks, isBlank c = true) :
    Reads (readValue depth) (blanks ++ text) value rest := by
  obtain ⟨c, left, rfl, hc, -⟩ := h.head
  rw [readValue_reads_iff, skipBlanks_append hblanks, skipBlanks_cons hc]
  exact h

/-- Behind blanks, an entry is read when its value is. -/
theorem Token.reads_entry {depth : Nat} {text : String} {value : Json}
    {blanks more rest : List Char}
    (h : Token (containers depth) (text.toList ++ more) value rest) (key : String)
    (hblanks : ∀ c ∈ blanks, isBlank c = true) :
    Reads (readEntry (readValue depth))
      (skipBlanks (blanks ++ ((quote key ++ ": " ++ text).toList ++ more))) (key, value) rest := by
  have hspace : ∀ c ∈ [' '], isBlank c = true := List.forall_mem_singleton.mpr rfl
  have htext : (quote key ++ ": " ++ text).toList ++ more =
      '"' :: (key.toList.flatMap (fun c => (escape c).toList) ++
        '"' :: ':' :: ([' '] ++ (text.toList ++ more))) := by
    simp only [String.toList_append, toList_quote, List.cons_append, List.append_assoc]
    rfl
  rw [htext, skipBlanks_append hblanks, skipBlanks_cons rfl]
  exact readEntry_reads_iff.mpr ⟨_, _, _, rfl, reads_quoted key, skipBlanks_cons rfl _,
    h.readsBehind hspace⟩

/-- What stands after a container's last item. -/
theorem skipBlanks_closing (level : Nat) {c : Char} (hc : isBlank c = false) (rest : List Char) :
    skipBlanks ((lineBreak level).toList ++ c :: rest) = c :: rest := by
  rw [skipBlanks_append (isBlank_lineBreak level), skipBlanks_cons hc]

/-! ## 4.  Values -/

theorem token_number {inner : Option (Reader Json)} {text rest : List Char} {n : Number}
    (h : readNumeral text = .ok (n, rest)) : Token inner text (.number n) rest := by
  cases text with
  | nil => cases h
  | cons c body =>
    refine .number ?_ h
    by_cases hminus : c = '-'
    · exact .inl hminus
    · refine .inr ?_
      rw [readNumeral_of_ne_minus fun other hcons => hminus (List.cons.inj hcons).1] at h
      unfold readUnsigned at h
      split at h
      case h_1 heq => cases heq
      case h_2 after heq =>
        cases heq
        rfl
      case h_3 d after _ heq =>
        cases heq
        split at h
        case isTrue => cases h
        case isFalse hd => exact Decidable.not_not.mp hd

theorem exists_of_depth_le {inside depth : Nat} (h : inside + 1 ≤ depth) :
    ∃ below, depth = below + 1 := ⟨depth - 1, by omega⟩

mutual

/-- The pretty text of a value is a token that is read as the value, whatever follows it. -/
theorem token_prettyAt (value : Json) (level depth : Nat) (rest : List Char)
    (hproper : value.isProper = true) (hreads : value.readsBack = true)
    (hdepth : value.depth ≤ depth) (hrest : endsNumeral rest = true) :
    Token (containers depth) ((prettyAt level value).toList ++ rest) value rest := by
  match value with
  | .null =>
    rw [prettyAt]
    exact .null
  | .bool true =>
    rw [prettyAt, if_pos rfl]
    exact .yes
  | .bool false =>
    rw [prettyAt, if_neg Bool.false_ne_true]
    exact .no
  | .number n =>
    rw [isProper] at hproper
    rw [readsBack] at hreads
    rw [prettyAt]
    exact token_number (Number.readNumeral_toText hproper hreads hrest)
  | .string s =>
    rw [prettyAt, toList_quote, List.cons_append, List.append_assoc]
    exact .string (reads_quoted s)
  | .array [] =>
    obtain ⟨below, rfl⟩ := exists_of_depth_le hdepth
    rw [prettyAt, prettyItems, toList_block_nil rfl rfl]
    exact .array rfl (readItems_reads_iff.mpr (.inl ⟨skipBlanks_cons rfl _, rfl⟩))
  | .array (item :: items) =>
    obtain ⟨below, rfl⟩ := exists_of_depth_le hdepth
    rw [isProper, areProper, Bool.and_eq_true] at hproper
    rw [readsBack, allReadBack, Bool.and_eq_true] at hreads
    rw [Json.depth, Nat.add_le_add_iff_right, depthItems, Nat.max_le] at hdepth
    have hitem := token_prettyAt item (level + 1) below _ hproper.1 hreads.1 hdepth.1
      (endsNumeral_itemsText level (']' :: rest) (prettyItems (level + 1) items))
    have hmore := reads_itemsText items level below rest hproper.2 hreads.2 hdepth.2
    have hblanks := isBlank_lineBreak (level + 1)
    obtain ⟨c, left, hskip, hclose⟩ := hitem.skipBlanks_eq hblanks
    rw [prettyAt, prettyItems, toList_block_cons rfl rfl]
    exact .array rfl (readItems_reads_iff.mpr (.inr
      ⟨c, left, item, _, items, hskip, hclose, hitem.readsBehind hblanks, hmore, rfl⟩))
  | .object [] =>
    obtain ⟨below, rfl⟩ := exists_of_depth_le hdepth
    rw [prettyAt, prettyFields, toList_block_nil rfl rfl]
    exact .object rfl (readEntries_reads_iff.mpr (.inl ⟨skipBlanks_cons rfl _, rfl⟩))
  | .object ((key, value) :: fields) =>
    obtain ⟨below, rfl⟩ := exists_of_depth_le hdepth
    rw [isProper, areProperFields_cons] at hproper
    obtain ⟨hkey, hproper⟩ := hproper
    rw [readsBack, fieldsReadBack, Bool.and_eq_true] at hreads
    rw [Json.depth, Nat.add_le_add_iff_right, depthFields, Nat.max_le] at hdepth
    have hvalue := token_prettyAt value (level + 1) below _ hproper.1 hreads.1 hdepth.1
      (endsNumeral_itemsText level ('\x7d' :: rest) (prettyFields (level + 1) fields))
    have hearlier : ∀ k ∈ Table.keys fields, k ∉ Table.keys [(key, value)] := by
      intro k hk hmem
      obtain rfl : k = key := List.mem_singleton.mp hmem
      exact hkey hk
    have hmore := reads_fieldsText fields [(key, value)] level below rest hproper.2 hreads.2
      hdepth.2 hearlier
    have hentry := hvalue.reads_entry key (isBlank_lineBreak (level + 1))
    rw [prettyAt, prettyFields, toList_block_cons rfl rfl]
    exact .object rfl (readEntries_reads_iff.mpr (.inr ⟨(key, value), _, hentry, hmore⟩))

theorem reads_itemsText (items : List Json) (level depth : Nat) (rest : List Char)
    (hproper : areProper items = true) (hreads : allReadBack items = true)
    (hdepth : depthItems items ≤ depth) :
    Reads (readMoreItems (readValue depth))
      (itemsText (separatorAt level) ((lineBreak level).toList ++ ']' :: rest)
        (prettyItems (level + 1) items)) items rest := by
  match items with
  | [] =>
    rw [prettyItems, itemsText]
    exact readMoreItems_reads_iff.mpr (.inl ⟨skipBlanks_closing level rfl rest, rfl⟩)
  | item :: items =>
    rw [areProper, Bool.and_eq_true] at hproper
    rw [allReadBack, Bool.and_eq_true] at hreads
    rw [depthItems, Nat.max_le] at hdepth
    have hitem := token_prettyAt item (level + 1) depth _ hproper.1 hreads.1 hdepth.1
      (endsNumeral_itemsText level (']' :: rest) (prettyItems (level + 1) items))
    have hmore := reads_itemsText items level depth rest hproper.2 hreads.2 hdepth.2
    have hblanks := isBlank_lineBreak (level + 1)
    obtain ⟨c, left, hskip, hclose⟩ := hitem.skipBlanks_eq hblanks
    rw [prettyItems, itemsText]
    exact readMoreItems_reads_iff.mpr (.inr ⟨_, c, left, item, _, items, skipBlanks_cons rfl _,
      hskip, hclose, hitem.readsBehind hblanks, hmore, rfl⟩)

theorem reads_fieldsText (fields earlier : List (String × Json)) (level depth : Nat)
    (rest : List Char) (hproper : areProperFields fields = true)
    (hreads : fieldsReadBack fields = true) (hdepth : depthFields fields ≤ depth)
    (hearlier : ∀ key ∈ Table.keys fields, key ∉ Table.keys earlier) :
    Reads (readMoreEntries (readValue depth) earlier)
      (itemsText (separatorAt level) ((lineBreak level).toList ++ '\x7d' :: rest)
        (prettyFields (level + 1) fields)) (earlier ++ fields) rest := by
  match fields with
  | [] =>
    rw [prettyFields, itemsText, List.append_nil]
    exact readMoreEntries_reads_iff.mpr (.inl ⟨skipBlanks_closing level rfl rest, rfl⟩)
  | (key, value) :: fields =>
    rw [areProperFields_cons] at hproper
    obtain ⟨hkey, hproper⟩ := hproper
    rw [fieldsReadBack, Bool.and_eq_true] at hreads
    rw [depthFields, Nat.max_le] at hdepth
    have hvalue := token_prettyAt value (level + 1) depth _ hproper.1 hreads.1 hdepth.1
      (endsNumeral_itemsText level ('\x7d' :: rest) (prettyFields (level + 1) fields))
    have hlater : ∀ k ∈ Table.keys fields, k ∉ Table.keys (earlier ++ [(key, value)]) := by
      intro k hk hmem
      rw [Table.keys, List.map_append, List.mem_append] at hmem
      obtain hmem | hmem := hmem
      · exact hearlier k (List.mem_cons_of_mem _ hk) hmem
      · obtain rfl : k = key := List.mem_singleton.mp hmem
        exact hkey hk
    have hmore := reads_fieldsText fields (earlier ++ [(key, value)]) level depth rest
      hproper.2 hreads.2 hdepth.2 hlater
    have hnew : key ∉ Table.keys earlier := hearlier key List.mem_cons_self
    rw [List.append_assoc, ← Table.insert_of_notMem hnew value] at hmore
    have hentry := hvalue.reads_entry key (isBlank_lineBreak (level + 1))
    rw [prettyFields, itemsText]
    exact readMoreEntries_reads_iff.mpr (.inr
      ⟨_, (key, value), _, skipBlanks_cons rfl _, hentry, hmore⟩)

end

/-! ## 5.  Documents -/

theorem endsNumeral_of_blanks {blanks : List Char} (h : ∀ c ∈ blanks, isBlank c = true) :
    endsNumeral blanks = true := by
  cases blanks with
  | nil => rfl
  | cons c blanks =>
    have hc : isBlank c = true := h c List.mem_cons_self
    simp only [isBlank, Bool.or_eq_true, decide_eq_true_eq] at hc
    obtain ((rfl | rfl) | rfl) | rfl := hc <;> rfl

theorem reads_pretty {value : Json} {depth : Nat} {blanks : List Char}
    (hproper : value.isProper = true) (hreads : value.readsBack = true)
    (hdepth : value.depth ≤ depth) (hblanks : ∀ c ∈ blanks, isBlank c = true) :
    Reads (readValue depth) (value.pretty.toList ++ blanks) value blanks := by
  have htoken := token_prettyAt value 0 depth blanks hproper hreads hdepth
    (endsNumeral_of_blanks hblanks)
  exact htoken.readsBehind (List.forall_mem_nil _)

/-- **Pretty text reads back.**  The pretty text of a proper value whose numbers read back, with
blanks after it, is read as that value and as no other; and it is read at all exactly when the
value is nested no deeper than the reader goes. -/
theorem parse_pretty_iff {value other : Json} (hproper : value.isProper = true)
    (hreads : value.readsBack = true) {ending : String}
    (hending : ∀ c ∈ ending.toList, isBlank c = true) :
    parse (value.pretty ++ ending) = .ok other ↔ other = value ∧ value.depth ≤ maxDepth := by
  rw [parse_eq_ok_iff, String.toList_append]
  constructor
  · rintro ⟨left, hother, -⟩
    -- A reader that goes deep enough for both values reads one text in one way.
    have hvalue := reads_pretty hproper hreads (Nat.le_max_left value.depth maxDepth) hending
    obtain ⟨rfl, -⟩ := (hother.value_mono (Nat.le_max_right value.depth maxDepth)).unique hvalue
    exact ⟨rfl, (isWithin_of_readValue hother).2⟩
  · rintro ⟨rfl, hdepth⟩
    refine ⟨ending.toList, reads_pretty hproper hreads hdepth hending, ?_⟩
    have hskip : skipBlanks (ending.toList ++ []) = skipBlanks [] := skipBlanks_append hending
    rwa [List.append_nil] at hskip

end GraphSearch.Json
