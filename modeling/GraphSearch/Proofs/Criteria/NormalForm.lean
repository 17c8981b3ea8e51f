import GraphSearch.Json.Printer
import GraphSearch.Proofs.Criteria.Normal
import GraphSearch.Proofs.Json.Path
/-!
# Normal form

A value is normal when no object stands under a group operator, at no depth (`IsNormal`).  That
is what normalization reaches, in one pass (`isNormal_normalize`), and all that it changes: a
value is left alone exactly when it is normal (`normalize_eq_self_iff`).

What stands under a group operator is looked at in another way than all else, so the recursion
carries along which of the two it is (`NormalUnder`).

The text says the same.  Every group that is rewritten brings a bracket with it and nothing takes
one away, so a value that is not normal has a longer text afterwards
(`normalizeUnder_eq_or_lt`).
-/

namespace GraphSearch

open Json (PathStep)

namespace Criteria

theorem isGroupKey_iff {key : String} : isGroupKey key = true ↔ ∃ op : GroupOp, op.key = key := by
  rw [isGroupKey, Option.isSome_iff_exists]
  constructor
  · rintro ⟨op, hop⟩
    exact ⟨op, GroupOp.key_of_ofKey? hop⟩
  · rintro ⟨op, rfl⟩
    exact ⟨op, GroupOp.ofKey?_key op⟩

/-! ## 1.  Normal values -/

/-- No object stands under a group operator, at no depth. -/
def IsNormal (value : Json) : Prop :=
  ∀ (path : List PathStep) (op : GroupOp) (fields : List (String × Json)),
    ¬ value.Reaches (path ++ [.key op.key]) (.object fields)

/-- The value is normal, and no object if it stands under a group operator. -/
def NormalUnder (grouped : Bool) (value : Json) : Prop :=
  (grouped = true → ∀ fields, value ≠ .object fields) ∧ IsNormal value

theorem normalUnder_false_iff {value : Json} : NormalUnder false value ↔ IsNormal value :=
  and_iff_right fun h => nomatch h

theorem isNormal_object_iff {fields : List (String × Json)} :
    IsNormal (.object fields) ↔ ∀ field ∈ fields, NormalUnder (isGroupKey field.1) field.2 := by
  constructor
  · rintro hnormal ⟨key, value⟩ hmem
    refine ⟨fun hkey inner hvalue => ?_, fun path op inner hreach => ?_⟩
    · obtain ⟨op, rfl⟩ := isGroupKey_iff.mp hkey
      subst hvalue
      exact hnormal [] op inner (.key hmem .here)
    · exact hnormal (.key key :: path) op inner (.key hmem hreach)
  · intro hfields path op inner hreach
    cases path with
    | nil =>
      obtain ⟨⟨key, value⟩, hmem, hstep, hinner⟩ := Json.reaches_object_iff.mp hreach
      obtain rfl := PathStep.key.inj hstep
      exact (hfields _ hmem).1 (isGroupKey_iff.mpr ⟨op, rfl⟩) inner (Json.reaches_nil_iff.mp hinner)
    | cons step path =>
      obtain ⟨field, hmem, -, hinner⟩ := Json.reaches_object_iff.mp hreach
      exact (hfields field hmem).2 path op inner hinner

theorem isNormal_array_iff {items : List Json} :
    IsNormal (.array items) ↔ ∀ item ∈ items, IsNormal item := by
  constructor
  · intro hnormal item hitem path op inner hreach
    obtain ⟨place, hplace⟩ := List.mem_iff_getElem?.mp hitem
    exact hnormal (.item place :: path) op inner (.item hplace hreach)
  · intro hitems path op inner hreach
    cases path with
    | nil =>
      obtain ⟨place, item, -, hstep, -⟩ := Json.reaches_array_iff.mp hreach
      cases hstep
    | cons step path =>
      obtain ⟨place, item, hplace, -, hinner⟩ := Json.reaches_array_iff.mp hreach
      exact hitems item (List.mem_of_getElem? hplace) path op inner hinner

/-- A value without parts has no place for an object. -/
theorem isNormal_of_noParts {value : Json} (hobject : ∀ fields, value ≠ .object fields)
    (harray : ∀ items, value ≠ .array items) : IsNormal value := by
  intro path op inner hreach
  cases path with
  | nil =>
    rcases hreach with _ | ⟨hmem, hinner⟩
    exact hobject _ rfl
  | cons step path =>
    rcases hreach with _ | ⟨hmem, hinner⟩ | ⟨hitem, hinner⟩
    · exact hobject _ rfl
    · exact harray _ rfl

/-! ## 2.  Normalization reaches the normal form -/

mutual

theorem normalUnder_normalizeUnder (grouped : Bool) (value : Json) :
    NormalUnder grouped (normalizeUnder grouped value) := by
  match value with
  | .object fields =>
    cases grouped with
    | true =>
      rw [normalizeUnder, if_pos rfl]
      exact ⟨fun _ _ => Json.noConfusion, isNormal_array_iff.mpr (isNormal_normalizeMembers fields)⟩
    | false =>
      rw [normalizeUnder, if_neg Bool.false_ne_true, normalUnder_false_iff, isNormal_object_iff]
      exact normalUnder_normalizeFields fields
  | .array items =>
    rw [normalizeUnder]
    exact ⟨fun _ _ => Json.noConfusion, isNormal_array_iff.mpr (isNormal_normalizeItems items)⟩
  | .null | .bool _ | .number _ | .string _ =>
    rw [normalizeUnder]
    exact ⟨fun _ _ => Json.noConfusion, isNormal_of_noParts (fun _ => Json.noConfusion)
      fun _ => Json.noConfusion⟩

theorem isNormal_normalizeItems (items : List Json) :
    ∀ item ∈ normalizeItems items, IsNormal item := by
  match items with
  | [] => exact List.forall_mem_nil _
  | item :: items =>
    rw [normalizeItems, List.forall_mem_cons]
    exact ⟨normalUnder_false_iff.mp (normalUnder_normalizeUnder false item),
      isNormal_normalizeItems items⟩

theorem normalUnder_normalizeFields (fields : List (String × Json)) :
    ∀ field ∈ normalizeFields fields, NormalUnder (isGroupKey field.1) field.2 := by
  match fields with
  | [] => exact List.forall_mem_nil _
  | (key, value) :: fields =>
    rw [normalizeFields, List.forall_mem_cons]
    exact ⟨normalUnder_normalizeUnder (isGroupKey key) value, normalUnder_normalizeFields fields⟩

/-- The single entries a group becomes are normalized with the group. -/
theorem isNormal_normalizeMembers (fields : List (String × Json)) :
    ∀ item ∈ normalizeMembers fields, IsNormal item := by
  match fields with
  | [] => exact List.forall_mem_nil _
  | (key, value) :: fields =>
    rw [normalizeMembers, List.forall_mem_cons, isNormal_object_iff, List.forall_mem_singleton]
    exact ⟨normalUnder_normalizeUnder (isGroupKey key) value, isNormal_normalizeMembers fields⟩

end

/-! ## 3.  Normal values are left alone -/

mutual

theorem normalizeUnder_of_normalUnder {grouped : Bool} (value : Json)
    (h : NormalUnder grouped value) : normalizeUnder grouped value = value := by
  match value with
  | .object fields =>
    cases grouped with
    | true => exact absurd rfl (h.1 rfl fields)
    | false =>
      rw [normalizeUnder, if_neg Bool.false_ne_true,
        normalizeFields_of_normalUnder fields (isNormal_object_iff.mp h.2)]
  | .array items =>
    rw [normalizeUnder, normalizeItems_of_isNormal items (isNormal_array_iff.mp h.2)]
  | .null | .bool _ | .number _ | .string _ => rw [normalizeUnder]

theorem normalizeItems_of_isNormal (items : List Json) (h : ∀ item ∈ items, IsNormal item) :
    normalizeItems items = items := by
  match items with
  | [] => rfl
  | item :: items =>
    obtain ⟨hitem, hitems⟩ := List.forall_mem_cons.mp h
    rw [normalizeItems, normalizeUnder_of_normalUnder item (normalUnder_false_iff.mpr hitem),
      normalizeItems_of_isNormal items hitems]

theorem normalizeFields_of_normalUnder (fields : List (String × Json))
    (h : ∀ field ∈ fields, NormalUnder (isGroupKey field.1) field.2) :
    normalizeFields fields = fields := by
  match fields with
  | [] => rfl
  | (key, value) :: fields =>
    obtain ⟨hfield, hfields⟩ := List.forall_mem_cons.mp h
    rw [normalizeFields, normalizeUnder_of_normalUnder value hfield,
      normalizeFields_of_normalUnder fields hfields]

end

theorem normalize_of_isNormal {value : Json} (h : IsNormal value) : normalize value = value :=
  normalizeUnder_of_normalUnder value (normalUnder_false_iff.mpr h)

/-- Normalizing a value again changes nothing. -/
theorem normalize_normalize (value : Json) : normalize (normalize value) = normalize value :=
  normalize_of_isNormal (normalUnder_false_iff.mp (normalUnder_normalizeUnder false value))

/-! ## 4.  Texts -/

/-- The number of opening brackets in a text. -/
def brackets (text : String) : Nat := text.toList.count '['

/-- The number of opening brackets in some texts. -/
def bracketsAll : List String → Nat
  | [] => 0
  | text :: texts => brackets text + bracketsAll texts

theorem brackets_append (text other : String) :
    brackets (text ++ other) = brackets text + brackets other := by
  rw [brackets, String.toList_append, List.count_append, brackets, brackets]

theorem bracketsAll_cons (text : String) (texts : List String) :
    bracketsAll (text :: texts) = brackets text + bracketsAll texts := rfl

/-- The commas between texts are no brackets. -/
theorem brackets_intercalate (texts : List String) :
    brackets (",".intercalate texts) = bracketsAll texts := by
  induction texts with
  | nil => rfl
  | cons text texts ih =>
    cases texts with
    | nil => rw [String.intercalate_singleton, bracketsAll_cons, bracketsAll]; rfl
    | cons second texts =>
      rw [String.intercalate_cons_cons, brackets_append, brackets_append, ih, bracketsAll_cons]
      rfl

theorem brackets_compact_array (items : List Json) :
    brackets (Json.array items).compact = bracketsAll (Json.compactItems items) + 1 := by
  have hopen : brackets "[" = 1 := rfl
  have hclose : brackets "]" = 0 := rfl
  rw [Json.compact, brackets_append, brackets_append, brackets_intercalate, hopen, hclose]
  omega

theorem brackets_compact_object (fields : List (String × Json)) :
    brackets (Json.object fields).compact = bracketsAll (Json.compactFields fields) := by
  rw [Json.compact, brackets_append, brackets_append, brackets_intercalate]
  exact Nat.zero_add _

theorem bracketsAll_compactFields (key : String) (value : Json) (fields : List (String × Json)) :
    bracketsAll (Json.compactFields ((key, value) :: fields)) =
      brackets (Json.quote key ++ ":") + brackets value.compact
        + bracketsAll (Json.compactFields fields) := by
  rw [Json.compactFields, bracketsAll_cons, brackets_append]

mutual

/-- A value that is changed gets more brackets, for every group that becomes an array has one of
its own. -/
theorem normalizeUnder_eq_or_lt (grouped : Bool) (value : Json) :
    normalizeUnder grouped value = value ∨
      brackets value.compact < brackets (normalizeUnder grouped value).compact := by
  match value with
  | .object fields =>
    cases grouped with
    | true =>
      have hmembers := bracketsAll_le_normalizeMembers fields
      rw [normalizeUnder, if_pos rfl, brackets_compact_object, brackets_compact_array]
      exact .inr (Nat.lt_succ_of_le hmembers)
    | false =>
      rw [normalizeUnder, if_neg Bool.false_ne_true, brackets_compact_object,
        brackets_compact_object]
      exact (normalizeFields_eq_or_lt fields).imp_left (congrArg Json.object)
  | .array items =>
    rw [normalizeUnder, brackets_compact_array, brackets_compact_array]
    exact (normalizeItems_eq_or_lt items).imp (congrArg Json.array) Nat.succ_lt_succ
  | .null | .bool _ | .number _ | .string _ =>
    rw [normalizeUnder]
    exact .inl rfl

theorem normalizeItems_eq_or_lt (items : List Json) :
    normalizeItems items = items ∨
      bracketsAll (Json.compactItems items) <
        bracketsAll (Json.compactItems (normalizeItems items)) := by
  match items with
  | [] => exact .inl rfl
  | item :: items =>
    rw [normalizeItems, Json.compactItems, Json.compactItems, bracketsAll_cons, bracketsAll_cons]
    rcases normalizeUnder_eq_or_lt false item with hitem | hitem <;>
      rcases normalizeItems_eq_or_lt items with hitems | hitems
    · exact .inl (by rw [hitem, hitems])
    · exact .inr (by rw [hitem]; omega)
    · exact .inr (by rw [hitems]; omega)
    · exact .inr (by omega)

theorem normalizeFields_eq_or_lt (fields : List (String × Json)) :
    normalizeFields fields = fields ∨
      bracketsAll (Json.compactFields fields) <
        bracketsAll (Json.compactFields (normalizeFields fields)) := by
  match fields with
  | [] => exact .inl rfl
  | (key, value) :: fields =>
    rw [normalizeFields, bracketsAll_compactFields, bracketsAll_compactFields]
    rcases normalizeUnder_eq_or_lt (isGroupKey key) value with hvalue | hvalue <;>
      rcases normalizeFields_eq_or_lt fields with hfields | hfields
    · exact .inl (by rw [hvalue, hfields])
    · exact .inr (by rw [hvalue]; omega)
    · exact .inr (by rw [hfields]; omega)
    · exact .inr (by omega)

/-- The brackets of the entries of a group are still there when each is an object of its own. -/
theorem bracketsAll_le_normalizeMembers (fields : List (String × Json)) :
    bracketsAll (Json.compactFields fields) ≤
      bracketsAll (Json.compactItems (normalizeMembers fields)) := by
  match fields with
  | [] => exact Nat.le_refl _
  | (key, value) :: fields =>
    have hfields := bracketsAll_le_normalizeMembers fields
    have hvalue : brackets value.compact ≤
        brackets (normalizeUnder (isGroupKey key) value).compact := by
      rcases normalizeUnder_eq_or_lt (isGroupKey key) value with hvalue | hvalue
      · exact Nat.le_of_eq (by rw [hvalue])
      · exact Nat.le_of_lt hvalue
    have hnil : bracketsAll (Json.compactFields []) = 0 := rfl
    rw [normalizeMembers, Json.compactItems, bracketsAll_cons, brackets_compact_object,
      bracketsAll_compactFields, bracketsAll_compactFields, hnil]
    omega

end

/-! ## 5.  The normal form -/

theorem normalize_eq_self_iff {value : Json} : normalize value = value ↔ IsNormal value :=
  ⟨fun h => h ▸ normalUnder_false_iff.mp (normalUnder_normalizeUnder false value),
    normalize_of_isNormal⟩

/-- What a value is normalized to has no group that is written as an object, at no depth.  A value
is normalized to itself, and to its own text, exactly when it has none to begin with; and so
normalizing it again changes nothing. -/
theorem isNormal_normalize (value : Json) :
    IsNormal (normalize value) ∧
      (normalize value = value ↔ IsNormal value) ∧
      ((normalize value).compact = value.compact ↔ IsNormal value) ∧
      normalize (normalize value) = normalize value := by
  refine ⟨normalUnder_false_iff.mp (normalUnder_normalizeUnder false value), normalize_eq_self_iff,
    ⟨fun htext => ?_, fun hnormal => ?_⟩, normalize_normalize value⟩
  · rcases normalizeUnder_eq_or_lt false value with hsame | hlonger
    · exact normalize_eq_self_iff.mp hsame
    · rw [← normalize, htext] at hlonger
      exact absurd hlonger (Nat.lt_irrefl _)
  · rw [normalize_of_isNormal hnormal]

/-- A group inside a group, and a group inside an array below a relation. -/
example : normalize (.object [("$or", .object [("a", .null), ("$and", .object [("b", .null)])]),
      ("R", .array [.object [("$not", .object [])]])]) =
    .object [("$or", .array [.object [("a", .null)],
        .object [("$and", .array [.object [("b", .null)]])]]),
      ("R", .array [.object [("$not", .array [])]])] := rfl

end Criteria
end GraphSearch
