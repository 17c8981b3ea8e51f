import GraphSearch.SortOrder
import GraphSearch.Proofs.Criteria.Normal
import GraphSearch.Proofs.Results
/-!
# Records read from normal values

A record is read field by field, and no field of a record is named like a group operator.  So a
record that was read is read again from the normal value, with the values it keeps as they are
normalized in their turn (`writeFields_normalizeFields`, `writeItems_normalizeItems`).  A field
that is a text, a number or a list of texts is read where normalization changes nothing
(`ReadsPlain`).

An order keeps no value at all: it is made of directions, which are texts, and comes out the same
(`SortOrder.ofJson_normalize`).
-/

namespace GraphSearch

open Criteria Results

/-! ## 1.  Fields -/

namespace Json

section

variable {α : Type} {read : Json → Except ShapeFault α}

/-- What is read is read only from values that normalization leaves alone. -/
def ReadsPlain (read : Json → Except ShapeFault α) : Prop :=
  ∀ {value : Json} {a : α}, read value = .ok a → ∀ grouped, normalizeUnder grouped value = value

theorem readsPlain_asString : ReadsPlain asString := by
  intro value a h grouped
  cases value with
  | string s => rfl
  | _ => cases h

theorem readsPlain_asBool : ReadsPlain asBool := by
  intro value a h grouped
  cases value with
  | bool b => rfl
  | _ => cases h

theorem readsPlain_asCount (bits : Nat) : ReadsPlain (asCount bits) := by
  intro value a h grouped
  cases value with
  | number n => rfl
  | _ => cases h

theorem readsPlain_asStrings : ReadsPlain asStrings := by
  intro value texts h grouped
  cases value with
  | array items =>
    have hitems : normalizeItems items = items := by
      induction mapM_eq_ok.mp h with
      | nil => rfl
      | cons hitem hitems ih =>
        rw [normalizeItems, readsPlain_asString hitem, ih (mapM_eq_ok.mpr hitems)]
    rw [normalizeUnder, hitems]
  | _ => cases h

theorem readsPlain_asOptional (hread : ReadsPlain read) : ReadsPlain (asOptional read) := by
  intro value a h grouped
  cases value with
  | null => rfl
  | _ =>
    obtain ⟨b, hb, -⟩ := map_eq_ok.mp h
    exact hread hb grouped

/-- A value that is kept as it is is kept as it is normalized. -/
theorem asOptional_asAny_normalize {value : Json} {kept : Option Json}
    (h : asOptional asAny value = .ok kept) :
    asOptional asAny (normalize value) = .ok (kept.map normalize) := by
  cases value <;> cases h <;> rfl

end

/-! ## 2.  Records -/

variable {ρ : Type} {write : String → Json → ρ → Except ShapeFault ρ} {normal : ρ → ρ}

/-- Writing a field that is normalized writes the normal record. -/
def WritesNormal (write : String → Json → ρ → Except ShapeFault ρ) (normal : ρ → ρ) : Prop :=
  ∀ {field : String} {value : Json} {record result : ρ}, write field value record = .ok result →
    write field (normalizeUnder (isGroupKey field) value) (normal record) = .ok (normal result)

theorem writeFields_normalizeFields (hwrite : WritesNormal write normal)
    {fields : List (String × Json)} {record result : ρ}
    (h : writeFields write fields record = .ok result) :
    writeFields write (normalizeFields fields) (normal record) = .ok (normal result) := by
  induction fields generalizing record with
  | nil =>
    cases h
    rfl
  | cons field fields ih =>
    rw [writeFields, List.foldlM_cons] at h
    obtain ⟨middle, hfield, hfields⟩ := bind_eq_ok.mp h
    rw [normalizeFields, writeFields, List.foldlM_cons]
    exact bind_eq_ok.mpr ⟨normal middle, hwrite hfield, ih hfields⟩

/-- The names of a record are no group operators, so what stands under them in an array is
normalized as under them in an object. -/
theorem zip_normalizeItems {names : List String} (hnames : ∀ name ∈ names, isGroupKey name = false)
    (items : List Json) : names.zip (normalizeItems items) = normalizeFields (names.zip items) := by
  induction names generalizing items with
  | nil => rfl
  | cons name names ih =>
    cases items with
    | nil => rfl
    | cons item items =>
      have hname : isGroupKey name = false := hnames name List.mem_cons_self
      rw [normalizeItems, List.zip_cons_cons, List.zip_cons_cons, normalizeFields, hname,
        ih fun other hother => hnames other (List.mem_cons_of_mem _ hother)]

theorem writeItems_normalizeItems (hwrite : WritesNormal write normal) {names : List String}
    (hnames : ∀ name ∈ names, isGroupKey name = false) {items : List Json} {record result : ρ}
    (h : writeItems write names items record = .ok result) :
    writeItems write names (normalizeItems items) (normal record) = .ok (normal result) := by
  obtain ⟨written, hwritten, h⟩ := bind_eq_ok.mp h
  have hlength : (normalizeItems items).length = items.length := by
    rw [normalizeItems_eq_map, List.length_map]
  have hzip := writeFields_normalizeFields hwrite hwritten
  rw [← zip_normalizeItems hnames] at hzip
  refine bind_eq_ok.mpr ⟨normal written, hzip, ?_⟩
  rw [hlength]
  split at h
  case isTrue => cases h
  case isFalse hle =>
    cases h
    rw [if_neg hle]
    rfl

end Json

/-! ## 3.  Orders -/

namespace SortOrder

theorem readKey_normalizeEntry (field : String × Json) :
    readKey (normalizeEntry field) = readKey field := by
  rw [readKey, readKey, normalizeEntry, string?_normalizeUnder]

/-- Directions are texts, so an order is read from the normal value as it was. -/
theorem ofJson_normalize {key : String} {value : Json} {order : SortOrder}
    (h : ofJson key value = .ok order) : ofJson key (normalize value) = .ok order := by
  cases value with
  | object fields =>
    cases fields with
    | nil => cases h
    | cons field fields =>
      have hkeys : (normalizeFields (field :: fields)).mapM readKey =
          (field :: fields).mapM readKey := by
        rw [normalizeFields_eq_map, List.mapM_map]
        congr 1
        funext entry
        exact readKey_normalizeEntry entry
      rw [ofJson] at h
      rw [normalize_object, normalizeFields, ofJson, ← normalizeFields, hkeys]
      cases hread : (field :: fields).mapM readKey with
      | some keys => rwa [hread] at h
      | none =>
        rw [hread] at h
        cases h
  | string name => exact h
  | _ => cases h

end SortOrder
end GraphSearch
