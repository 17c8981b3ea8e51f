import GraphSearch.Json.Reader
/-!
# Values that text can denote

The keys of an object that was read are distinct, and an integer that was read fits 64 bits,
with a sign or without one.  `Json.isProper` asks that of a value at every depth, and `Json.depth`
is how deep arrays and objects are nested in it.
-/

namespace GraphSearch

/-- An integer fits 64 bits, with a sign or without. -/
def Number.isProper : Number → Bool
  | .int value => -(Nat.pow 2 63 : Nat) ≤ value && value < (Nat.pow 2 64 : Nat)
  | .float _ => true

namespace Json

mutual

/-- Keys are distinct and integers fit 64 bits, at every depth. -/
def isProper : Json → Bool
  | .null | .bool _ | .string _ => true
  | .number n => n.isProper
  | .array items => areProper items
  | .object fields => areProperFields fields

def areProper : List Json → Bool
  | [] => true
  | item :: items => isProper item && areProper items

def areProperFields : List (String × Json) → Bool
  | [] => true
  | (key, value) :: fields =>
    !(Table.keys fields).contains key && isProper value && areProperFields fields

end

theorem areProperFields_cons {key : String} {value : Json} {fields : List (String × Json)} :
    areProperFields ((key, value) :: fields) = true ↔
      key ∉ Table.keys fields ∧ value.isProper = true ∧ areProperFields fields = true := by
  simp [areProperFields, and_assoc]

theorem areProper_iff {items : List Json} :
    areProper items = true ↔ ∀ item ∈ items, item.isProper = true := by
  induction items with
  | nil => simp [areProper]
  | cons item items ih => simp [areProper, ih]

theorem areProperFields_iff {fields : List (String × Json)} :
    areProperFields fields = true ↔
      (Table.keys fields).Nodup ∧ ∀ field ∈ fields, field.2.isProper = true := by
  induction fields with
  | nil => simp [areProperFields, Table.keys]
  | cons field fields ih =>
    have hkeys : Table.keys (field :: fields) = field.1 :: Table.keys fields := rfl
    rw [areProperFields_cons, ih, hkeys, List.nodup_cons, List.forall_mem_cons]
    constructor
    · rintro ⟨hkey, hvalue, hnodup, hfields⟩
      exact ⟨⟨hkey, hnodup⟩, hvalue, hfields⟩
    · rintro ⟨⟨hkey, hnodup⟩, hvalue, hfields⟩
      exact ⟨hkey, hvalue, hnodup, hfields⟩

mutual

/-- How deep arrays and objects are nested in a value. -/
def depth : Json → Nat
  | .null | .bool _ | .number _ | .string _ => 0
  | .array items => depthItems items + 1
  | .object fields => depthFields fields + 1

def depthItems : List Json → Nat
  | [] => 0
  | item :: items => max (depth item) (depthItems items)

def depthFields : List (String × Json) → Nat
  | [] => 0
  | (_, value) :: fields => max (depth value) (depthFields fields)

end

theorem depthItems_le_iff {items : List Json} {bound : Nat} :
    depthItems items ≤ bound ↔ ∀ item ∈ items, item.depth ≤ bound := by
  induction items with
  | nil => simp [depthItems]
  | cons item items ih => rw [depthItems, Nat.max_le, ih, List.forall_mem_cons]

theorem depthFields_le_iff {fields : List (String × Json)} {bound : Nat} :
    depthFields fields ≤ bound ↔ ∀ field ∈ fields, field.2.depth ≤ bound := by
  induction fields with
  | nil => simp [depthFields]
  | cons field fields ih => rw [depthFields, Nat.max_le, ih, List.forall_mem_cons]

end Json
end GraphSearch
