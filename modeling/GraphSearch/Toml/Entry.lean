import GraphSearch.Table
import GraphSearch.Toml.Basic
/-!
# Building tables

The lines of a document add to a tree of entries.  A table comes into being in one of
three ways, by a header of its own, by a header of a table inside it, or by a dotted key
(`Origin`), and a table may be defined only once: a header may still define what
exists only because of headers inside it, and dotted keys may only add to tables that
no header defined.  Every function here answers nothing when a line would define
something again.
-/

namespace GraphSearch.Toml

/-- How a table came into being. -/
inductive Origin where
  /-- By a header of its own. -/
  | header
  /-- By the header of a table inside it. -/
  | inner
  /-- By a dotted key. -/
  | dotted
  deriving DecidableEq, Repr, Inhabited

/-- What a key stands for while a document is read. -/
inductive Entry where
  | value (value : Toml)
  | table (origin : Origin) (fields : List (String × Entry))
  /-- Tables that each have a header of their own, the last one first. -/
  | tables (last : List (String × Entry)) (earlier : List (List (String × Entry)))
  deriving Repr, Inhabited

/-- The entries of a table. -/
abbrev Fields := List (String × Entry)

/-- Defines the table with a path by its header. -/
def openTable : (path : List String) → Fields → Option Fields
  | [], _ => none
  | [key], fields =>
    match Table.find? key fields with
    | none => some (Table.insert key (.table .header []) fields)
    | some (.table .inner inside) => some (Table.insert key (.table .header inside) fields)
    | _ => none
  | key :: path, fields =>
    match Table.find? key fields with
    | none => do
      let inside ← openTable path []
      return Table.insert key (.table .inner inside) fields
    | some (.table origin inside) => do
      let inside ← openTable path inside
      return Table.insert key (.table origin inside) fields
    | some (.tables last earlier) => do
      let last ← openTable path last
      return Table.insert key (.tables last earlier) fields
    | some (.value _) => none

/-- Adds a table to the array of tables with a path. -/
def openElement : (path : List String) → Fields → Option Fields
  | [], _ => none
  | [key], fields =>
    match Table.find? key fields with
    | none => some (Table.insert key (.tables [] []) fields)
    | some (.tables last earlier) =>
      some (Table.insert key (.tables [] (last :: earlier)) fields)
    | _ => none
  | key :: path, fields =>
    match Table.find? key fields with
    | none => do
      let inside ← openElement path []
      return Table.insert key (.table .inner inside) fields
    | some (.table origin inside) => do
      let inside ← openElement path inside
      return Table.insert key (.table origin inside) fields
    | some (.tables last earlier) => do
      let last ← openElement path last
      return Table.insert key (.tables last earlier) fields
    | some (.value _) => none

/-- Assigns a value inside a table that a header, or the start of the document, opened. -/
def assign (value : Toml) : (path : List String) → Fields → Option Fields
  | [], _ => none
  | [key], fields =>
    match Table.find? key fields with
    | none => some (Table.insert key (.value value) fields)
    | some _ => none
  | [outer, key], fields =>
    match Table.find? outer fields with
    | none => some (Table.insert outer (.table .dotted [(key, .value value)]) fields)
    | some (.table .dotted inside) => do
      let inside ← assign value [key] inside
      return Table.insert outer (.table .dotted inside) fields
    | _ => none
  | outer :: path, fields =>
    match Table.find? outer fields with
    | none => do
      let inside ← assign value path []
      return Table.insert outer (.table .dotted inside) fields
    | some (.table .header _) => none
    | some (.table origin inside) => do
      let inside ← assign value path inside
      return Table.insert outer (.table origin inside) fields
    | some (.tables last earlier) => do
      let last ← assign value path last
      return Table.insert outer (.tables last earlier) fields
    | some (.value _) => none

/-- Changes the table that the last header with a path opened. -/
def within (change : Fields → Option Fields) : (path : List String) → Fields → Option Fields
  | [], fields => change fields
  | key :: path, fields =>
    match Table.find? key fields with
    | some (.table origin inside) => do
      let inside ← within change path inside
      return Table.insert key (.table origin inside) fields
    | some (.tables last earlier) => do
      let last ← within change path last
      return Table.insert key (.tables last earlier) fields
    | _ => none

mutual

/-- The value an entry stands for. -/
def Entry.toToml : Entry → Toml
  | .value value => value
  | .table _ fields => .table (fieldsToToml fields)
  | .tables last earlier =>
    .array ((tablesToToml earlier).reverse ++ [.table (fieldsToToml last)])

/-- The values of the entries of a table. -/
def fieldsToToml : List (String × Entry) → List (String × Toml)
  | [] => []
  | (key, entry) :: fields => (key, entry.toToml) :: fieldsToToml fields

/-- The tables of an array of tables. -/
def tablesToToml : List (List (String × Entry)) → List Toml
  | [] => []
  | fields :: others => .table (fieldsToToml fields) :: tablesToToml others

end

end GraphSearch.Toml
