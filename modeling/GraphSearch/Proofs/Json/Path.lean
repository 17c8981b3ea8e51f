import GraphSearch.Json.Basic
/-!
# Paths into a value

A path goes down into a value, at each step to the value of a key or to an item of an array.
`Json.Reaches` says where it leads, and so what a value has inside and under which keys.

* `reaches_nil_iff`, `reaches_object_iff`, `reaches_array_iff`: where a path leads is decided by
  its first step.
-/

namespace GraphSearch.Json

/-- A step down into a value. -/
inductive PathStep where
  /-- To the value of a key. -/
  | key (name : String)
  /-- To the item at a place. -/
  | item (place : Nat)
  deriving DecidableEq, Repr

/-- The path leads from the first value to the second. -/
inductive Reaches : Json → List PathStep → Json → Prop
  | here {value} : Reaches value [] value
  | key {name value fields path inner} : (name, value) ∈ fields → Reaches value path inner →
      Reaches (.object fields) (.key name :: path) inner
  | item {place value items path inner} : items[place]? = some value →
      Reaches value path inner → Reaches (.array items) (.item place :: path) inner

variable {value inner : Json} {path : List PathStep}

theorem reaches_nil_iff : value.Reaches [] inner ↔ value = inner := by
  constructor
  · rintro ⟨⟩
    rfl
  · rintro rfl
    exact .here

theorem reaches_object_iff {fields : List (String × Json)} {step : PathStep} :
    (Json.object fields).Reaches (step :: path) inner ↔
      ∃ field ∈ fields, step = .key field.1 ∧ field.2.Reaches path inner := by
  constructor
  · rintro (_ | ⟨hmem, hinner⟩)
    exact ⟨_, hmem, rfl, hinner⟩
  · rintro ⟨field, hmem, rfl, hinner⟩
    exact .key hmem hinner

theorem reaches_array_iff {items : List Json} {step : PathStep} :
    (Json.array items).Reaches (step :: path) inner ↔
      ∃ place item, items[place]? = some item ∧ step = .item place ∧ item.Reaches path inner := by
  constructor
  · rintro (_ | _ | ⟨hitem, hinner⟩)
    exact ⟨_, _, hitem, rfl, hinner⟩
  · rintro ⟨place, item, hitem, rfl, hinner⟩
    exact .item hitem hinner

end GraphSearch.Json
