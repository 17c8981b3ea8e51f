import GraphSearch.Json.Printer
import GraphSearch.Unicode.Printable
/-!
# Records in JSON

A record is read from an object by its field names, or from an array by their order.
What can go wrong is one of a few causes (`ShapeFault`), and the readers of single
fields (`asString`, `asCount`, …) are what the records of this library are read with.
-/

namespace GraphSearch.Json

/-! ## 1.  What can be wrong with a shape -/

/-- Why a value does not have the shape asked for. -/
inductive ShapeFault where
  /-- The value is of another kind than the one wanted. -/
  | mismatch (found : Json) (wanted : String)
  /-- The integer does not fit the type wanted. -/
  | outOfRange (found : Int) (wanted : String)
  /-- A field that must be there is not. -/
  | missingField (field : String)
  /-- A field is there that the record does not know. -/
  | unknownField (field : String) (known : List String)
  /-- The array has this many items, more than the record has fields. -/
  | tooManyItems (count : Nat)
  /-- The array ends after this many items, and the record needs `wanted`. -/
  | tooFewItems (count : Nat) (wanted : String)
  deriving DecidableEq, Repr

/-- What a value is called where another kind was wanted. -/
def describe : Json → String
  | .null => "null"
  | .bool b => "boolean `" ++ (if b then "true" else "false") ++ "`"
  | .number (.int i) => "integer `" ++ toString i ++ "`"
  | .number (.float x) => "floating point `" ++ x.toText ++ "`"
  | .string s => "string " ++ Unicode.quoteVisible s
  | .array _ => "sequence"
  | .object _ => "map"

/-- The wording of a fault. -/
def ShapeFault.message : ShapeFault → String
  | .mismatch found wanted => "invalid type: " ++ describe found ++ ", expected " ++ wanted
  | .outOfRange found wanted =>
    "invalid value: integer `" ++ toString found ++ "`, expected " ++ wanted
  | .missingField field => "missing field `" ++ field ++ "`"
  | .unknownField field known =>
    "unknown field `" ++ field ++ "`, expected one of "
      ++ ", ".intercalate (known.map fun k => "`" ++ k ++ "`")
  | .tooManyItems count =>
    "invalid length " ++ toString count ++ ", expected fewer elements in array"
  | .tooFewItems count wanted =>
    "invalid length " ++ toString count ++ ", expected " ++ wanted

/-! ## 2.  Fields -/

/-- A text. -/
def asString : Json → Except ShapeFault String
  | .string s => .ok s
  | v => .error (.mismatch v "a string")

/-- A truth value. -/
def asBool : Json → Except ShapeFault Bool
  | .bool b => .ok b
  | v => .error (.mismatch v "a boolean")

/-- A natural number below `2 ^ bits`. -/
def asCount (bits : Nat) : Json → Except ShapeFault Nat
  | .number (.int i) =>
    if 0 ≤ i ∧ i < Nat.pow 2 bits then .ok i.toNat
    else .error (.outOfRange i ("u" ++ toString bits))
  | v => .error (.mismatch v ("u" ++ toString bits))

/-- A list of texts. -/
def asStrings : Json → Except ShapeFault (List String)
  | .array items => items.mapM asString
  | v => .error (.mismatch v "a sequence")

/-- A field that `null` leaves absent. -/
def asOptional {α : Type} (read : Json → Except ShapeFault α) :
    Json → Except ShapeFault (Option α)
  | .null => .ok none
  | v => (read v).map some

/-- Any value. -/
def asAny (value : Json) : Except ShapeFault Json := .ok value

/-! ## 3.  Records -/

/-- Writes the entries into a record one after the other, as `write` says. -/
def writeFields {ρ : Type} (write : String → Json → ρ → Except ShapeFault ρ)
    (fields : List (String × Json)) (record : ρ) : Except ShapeFault ρ :=
  fields.foldlM (fun r field => write field.1 field.2 r) record

/-- Writes the items into a record under the names given, in order; items beyond the
names are refused after those before them have been written. -/
def writeItems {ρ : Type} (write : String → Json → ρ → Except ShapeFault ρ)
    (names : List String) (items : List Json) (record : ρ) : Except ShapeFault ρ := do
  let record ← writeFields write (names.zip items) record
  if names.length < items.length then throw (.tooManyItems items.length)
  return record

end GraphSearch.Json
