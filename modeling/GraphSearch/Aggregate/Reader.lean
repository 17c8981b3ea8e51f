import GraphSearch.Aggregate.Basic
/-!
# Reading aggregations

An aggregation is an object with one entry to each column.  An entry is read in two
steps: first the fields of its record (`Entry`), then what they come to (`Head`).  The
inner aggregation of an entry is read last, where it stands in the entry, which is what
makes the whole a plain recursion over the value.

An inner aggregation counts only for collected records: beside a collected property, or
on an accumulator, it is passed over.
-/

namespace GraphSearch.Aggregation

/-! ## 1.  The record of an entry -/

/-- The fields of an entry, as far as they were given. -/
structure Entry where
  function : Option String := none
  source : Option String := none
  field : Option String := none
  uniq : Option Bool := none
  precision : Option Nat := none
  limit : Option Nat := none
  skip : Option Nat := none
  orderBy : Option Json := none
  aggregate : Option Json := none
  deriving Repr, Inhabited

/-- The key of an inner aggregation. -/
def innerKey : String := "aggregate"

/-- The place of an inner aggregation among the items of an entry. -/
def innerPlace : Nat := 8

/-- The field names, in order. -/
def Entry.fieldNames : List String :=
  ["fn", "alias", "field", "uniq", "precision", "limit", "skip", "orderBy", innerKey]

/-- Writes one field; an unknown one changes nothing. -/
def Entry.write (field : String) (value : Json) (entry : Entry) :
    Except Json.ShapeFault Entry :=
  match field with
  | "fn" => return { entry with function := some (← value.asString) }
  | "alias" => return { entry with source := some (← value.asString) }
  | "field" => return { entry with field := ← Json.asOptional Json.asString value }
  | "uniq" => return { entry with uniq := ← Json.asOptional Json.asBool value }
  | "precision" => return { entry with precision := ← Json.asOptional (Json.asCount 32) value }
  | "limit" => return { entry with limit := ← Json.asOptional (Json.asCount 64) value }
  | "skip" => return { entry with skip := ← Json.asOptional (Json.asCount 64) value }
  | "orderBy" => return { entry with orderBy := ← Json.asOptional Json.asAny value }
  | "aggregate" => return { entry with aggregate := ← Json.asOptional Json.asAny value }
  | _ => return entry

/-- Reads the fields of an entry.  An array must give all of them. -/
def Entry.ofJson : Json → Except Json.ShapeFault Entry
  | .object fields => Json.writeFields Entry.write fields {}
  | .array items => do
    let entry ← Json.writeItems Entry.write fieldNames items {}
    if items.length < fieldNames.length then
      throw (.tooFewItems items.length "struct RawAggregate with 9 elements")
    return entry
  | v => .error (.mismatch v "struct RawAggregate")

/-! ## 2.  What the record comes to -/

/-- A column before its inner aggregation is read. -/
inductive Head where
  | accumulate (accumulation : Accumulation)
  | collect (collection : Collection)
  | rollUp (collection : Collection)
  deriving Repr, Inhabited

/-- Reads everything of an entry but its inner aggregation. -/
def readHead (column : String) (value : Json) : Except Rejection Head := do
  let invalid (fault : AggregateFault) := Rejection.invalidAggregate column fault value
  let entry ← (Entry.ofJson value).mapError fun fault => invalid (.shape fault)
  let some function := entry.function | throw (invalid (.shape (.missingField "fn")))
  let some source := entry.source | throw (invalid (.shape (.missingField "alias")))
  if function = "collect" then
    let order ← match entry.orderBy with
      | some value => some <$> SortOrder.ofJson column value
      | none => pure none
    let collection : Collection :=
      { source, field := entry.field, distinct := entry.uniq.getD true,
        limit := entry.limit, skip := entry.skip, order }
    match entry.aggregate with
    | some (.object _) =>
      if entry.field.isSome then return .collect collection else return .rollUp collection
    | some other => throw (invalid (.nestedNotObject other))
    | none => return .collect collection
  else
    let some accumulator := Accumulator.ofName? function
      | throw (invalid (.unknownFunction function))
    if accumulator ≠ .count ∧ entry.field = none then
      throw (invalid (.fieldRequired accumulator.name))
    return .accumulate
      { function := accumulator, source, field := entry.field,
        distinct := entry.uniq.getD false, precision := entry.precision }

/-! ## 3.  The recursion -/

/-- A column with its inner aggregation, which is read only where one is wanted. -/
def Head.complete (head : Head) (inner : Unit → Except Rejection Aggregation) :
    Except Rejection Aggregate :=
  match head with
  | .accumulate accumulation => .ok (.accumulate accumulation)
  | .collect collection => .ok (.collect collection)
  | .rollUp collection => (inner ()).map (Aggregate.rollUp collection)

mutual

/-- Reads the entry of a column. -/
def readColumn (column : String) : Json → Except Rejection Aggregate
  | .object fields => do
    (← readHead column (.object fields)).complete fun _ => innerOfFields fields
  | .array items => do
    (← readHead column (.array items)).complete fun _ => innerOfItems innerPlace items
  | .null => (readHead column .null).bind fun head => head.complete fun _ => .ok []
  | .bool b => (readHead column (.bool b)).bind fun head => head.complete fun _ => .ok []
  | .number n => (readHead column (.number n)).bind fun head => head.complete fun _ => .ok []
  | .string s => (readHead column (.string s)).bind fun head => head.complete fun _ => .ok []

/-- Reads the inner aggregation among the fields of an entry. -/
def innerOfFields : List (String × Json) → Except Rejection Aggregation
  | [] => .ok []
  | (key, value) :: fields =>
    if key = innerKey then readInner value else innerOfFields fields

/-- Reads the inner aggregation at a place among the items of an entry. -/
def innerOfItems : Nat → List Json → Except Rejection Aggregation
  | _, [] => .ok []
  | 0, value :: _ => readInner value
  | place + 1, _ :: items => innerOfItems place items

/-- Reads an inner aggregation, which is an object where this is used. -/
def readInner : Json → Except Rejection Aggregation
  | .object fields => readColumns fields
  | .array _ | .null | .bool _ | .number _ | .string _ => .ok []

/-- Reads the entries of an aggregation, in order. -/
def readColumns : List (String × Json) → Except Rejection Aggregation
  | [] => .ok []
  | (column, value) :: fields => do
    let aggregate ← readColumn column value
    let others ← readColumns fields
    return (column, aggregate) :: others

end

/-- Reads an aggregation. -/
def ofJson : Json → Except Rejection Aggregation
  | .object fields => readColumns fields
  | value => .error (.invalidAggregate "" .notObject value)

end GraphSearch.Aggregation
