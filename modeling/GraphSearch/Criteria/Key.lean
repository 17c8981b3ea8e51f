import GraphSearch.Json.Basic
/-!
# The keys of a criteria object

A criteria object is a conjunction of its entries, and the key of an entry, with the
shape of its value, says what the entry is: a logical group, the record's identity, a
directive, a comparison of a property, or criteria for related records.

Properties and related records are not marked as such.  The value of a property is
anything but an object, or an object all of whose keys are operators
(`comparesProperty`); every other object is criteria for records that are related
under that label.
-/

namespace GraphSearch

/-! ## 1.  Group operators -/

/-- The operators that combine criteria into a group. -/
inductive GroupOp where
  | and | or | not | xor | nor
  deriving DecidableEq, Repr, Inhabited

namespace GroupOp

/-- The operator a key names. -/
def ofKey? : String → Option GroupOp
  | "$and" => some .and
  | "$or" => some .or
  | "$not" => some .not
  | "$xor" => some .xor
  | "$nor" => some .nor
  | _ => none

/-- The key that names an operator. -/
def key : GroupOp → String
  | .and => "$and"
  | .or => "$or"
  | .not => "$not"
  | .xor => "$xor"
  | .nor => "$nor"

/-- Whether the group asks that its members *fail*. -/
def negates : GroupOp → Bool
  | .not | .nor => true
  | .and | .or | .xor => false

@[simp] theorem ofKey?_key (op : GroupOp) : ofKey? op.key = some op := by
  cases op <;> rfl

theorem key_of_ofKey? {key : String} {op : GroupOp} (h : ofKey? key = some op) :
    op.key = key := by
  simp only [ofKey?] at h
  split at h <;> cases h <;> rfl

end GroupOp

namespace Criteria

/-! ## 2.  Keys -/

/-- The key of a record's identity. -/
def idKey : String := "$id"

/-- The key that names the records of an object for an aggregation. -/
def aliasKey : String := "$alias"

/-- The key that says how the records of an object are related to those around it. -/
def relationKey : String := "$relation"

/-- An operator key: it starts with a dollar sign and is none of the keys that have a
meaning of their own in a criteria object. -/
def isOperatorKey (key : String) : Bool :=
  key.toList.head? = some '$' && (GroupOp.ofKey? key).isNone
    && key ≠ idKey && key ≠ aliasKey && key ≠ relationKey

/-- The value compares a property: it is not an object, or an object that is not empty
and has operator keys only. -/
def comparesProperty : Json → Bool
  | .object fields => !fields.isEmpty && fields.all fun field => isOperatorKey field.1
  | _ => true

/-- What an entry of a criteria object is. -/
inductive EntryKind where
  | group (op : GroupOp)
  | identity
  | declaration
  | relation
  | property
  | related
  deriving DecidableEq, Repr, Inhabited

/-- What the entry of `key` and `value` is. -/
def kindOf (key : String) (value : Json) : EntryKind :=
  match GroupOp.ofKey? key with
  | some op => .group op
  | none =>
    if key = idKey then .identity
    else if key = aliasKey then .declaration
    else if key = relationKey then .relation
    else if comparesProperty value then .property
    else .related

/-- The entry is criteria for related records. -/
def isRelated (entry : String × Json) : Bool := kindOf entry.1 entry.2 = .related

/-- The entries about the record itself, in order. -/
def ownEntries (fields : List (String × Json)) : List (String × Json) :=
  fields.filter fun entry => !isRelated entry

/-- The entries about related records, in order. -/
def relatedEntries (fields : List (String × Json)) : List (String × Json) :=
  fields.filter isRelated

/-- A group stands under the key of its operator. -/
theorem key_of_kindOf_group {key : String} {value : Json} {op : GroupOp}
    (h : kindOf key value = .group op) : op.key = key := by
  simp only [kindOf] at h
  cases hop : GroupOp.ofKey? key with
  | some op' =>
    simp only [hop, EntryKind.group.injEq] at h
    exact GroupOp.key_of_ofKey? (h ▸ hop)
  | none =>
    simp only [hop] at h
    repeat' split at h
    all_goals cases h

theorem key_of_kindOf_identity {key : String} {value : Json} (h : kindOf key value = .identity) :
    key = idKey := by
  simp only [kindOf] at h
  repeat' split at h
  all_goals first | assumption | cases h

/-- Only objects are criteria for related records. -/
theorem isRelated_object {key : String} {value : Json} (h : isRelated (key, value)) :
    ∃ fields, value = .object fields := by
  cases value with
  | object fields => exact ⟨fields, rfl⟩
  | _ =>
    simp only [isRelated, kindOf, comparesProperty, decide_eq_true_eq] at h
    repeat' split at h
    all_goals simp_all

end Criteria
end GraphSearch
