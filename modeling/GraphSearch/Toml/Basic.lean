/-!
# TOML values

The values of a settings file.  No setting is a float or a date, so of these only what
they are is kept.  A number may have no value: because it is more than its kind can hold,
an integer beyond 128 bits or a float beyond the finite doubles, or because its digits
are missing or mixed with other characters.  Such a number does no harm to a document in
which nobody asks for it.
-/

namespace GraphSearch

/-- A TOML value. -/
inductive Toml where
  | string (value : String)
  | integer (value : Int)
  | boolean (value : Bool)
  | float
  /-- A number that has no value. -/
  | valueless
  | date
  | array (items : List Toml)
  | table (fields : List (String × Toml))
  deriving Repr, Inhabited

namespace Toml

mutual

/-- Every number in the value has a value itself. -/
def isSound : Toml → Bool
  | .valueless => false
  | .array items => itemsSound items
  | .table fields => fieldsSound fields
  | _ => true

/-- Every number in the values has a value itself. -/
def itemsSound : List Toml → Bool
  | [] => true
  | item :: items => item.isSound && itemsSound items

/-- Every number in the fields has a value itself. -/
def fieldsSound : List (String × Toml) → Bool
  | [] => true
  | (_, value) :: fields => value.isSound && fieldsSound fields

end

end Toml
end GraphSearch
