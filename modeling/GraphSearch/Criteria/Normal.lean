import GraphSearch.Criteria.Key
/-!
# Normal criteria

A logical group may be written as an object, `{"$or": {"a": 1, "b": 2}}`, or as an
array with one object per member.  `normalize` turns the first form into the second
at every depth, wherever a key that names a group operator stands, and changes
nothing else.
-/

namespace GraphSearch.Criteria

/-- The key names a group operator. -/
def isGroupKey (key : String) : Bool := (GroupOp.ofKey? key).isSome

mutual

/-- Normalizes a value that stands under a group operator if `grouped` is set, and
anywhere else if it is not. -/
def normalizeUnder (grouped : Bool) : Json → Json
  | .object fields =>
    if grouped then .array (normalizeMembers fields) else .object (normalizeFields fields)
  | .array items => .array (normalizeItems items)
  | .null => .null
  | .bool b => .bool b
  | .number n => .number n
  | .string s => .string s

/-- Normalizes the items of an array. -/
def normalizeItems : List Json → List Json
  | [] => []
  | item :: items => normalizeUnder false item :: normalizeItems items

/-- Normalizes the entries of an object that stays an object. -/
def normalizeFields : List (String × Json) → List (String × Json)
  | [] => []
  | (key, value) :: fields =>
    (key, normalizeUnder (isGroupKey key) value) :: normalizeFields fields

/-- Normalizes the entries of a group that becomes an array of single entries. -/
def normalizeMembers : List (String × Json) → List Json
  | [] => []
  | (key, value) :: fields =>
    .object [(key, normalizeUnder (isGroupKey key) value)] :: normalizeMembers fields

end

/-- The value with every logical group written as an array. -/
def normalize (value : Json) : Json := normalizeUnder false value

end GraphSearch.Criteria
