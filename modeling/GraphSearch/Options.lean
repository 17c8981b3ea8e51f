import GraphSearch.Cypher.Name
import GraphSearch.Json.Shape
/-!
# Options

What a store calls its own keys and labels, and how many records a page has when a
request does not say.  The defaults are those of the storage model; a record of
options may leave out any of them, and fields it does not know are passed over.
-/

namespace GraphSearch

/-- The names of the internal keys and labels, and the page sizes. -/
structure Options where
  /-- The variable of the root record; related records get numbered variants of it. -/
  rootAlias : String := "record"
  /-- The label every record carries. -/
  recordLabel : String := "__RECORD__"
  /-- The property that identifies a record. -/
  idKey : String := "__id"
  /-- The name under which a record's own label is returned. -/
  labelKey : String := "__label"
  /-- The property that holds the type of each property, as JSON text. -/
  typesKey : String := "__proptypes"
  /-- What stands in the store for a property without a value. -/
  nullSentinel : String := "__NULL__"
  /-- How many records a page has. -/
  defaultLimit : Nat := 100
  /-- How many elements a collected list has. -/
  defaultCollectLimit : Nat := 100
  deriving DecidableEq, Repr, Inhabited

namespace Options

/-! ## 1.  Expressions over the internal keys -/

/-- The label of a record other than the one every record carries. -/
def labelOf (options : Options) (node : String) : String :=
  "[label IN labels(" ++ node ++ ") WHERE label <> \"" ++ options.recordLabel ++ "\"][0]"

/-- The types of a record's properties. -/
def typesOf (options : Options) (node : String) : String :=
  "apoc.convert.fromJsonMap(" ++ node ++ "." ++ options.typesKey ++ ")"

/-! ## 2.  Reading and writing -/

/-- The field names, in order. -/
def fieldNames : List String :=
  ["root_alias", "record_label", "id_key", "label_key", "types_key", "null_sentinel",
    "default_limit", "default_collect_limit"]

/-- Writes one field; an unknown one changes nothing. -/
def write (field : String) (value : Json) (options : Options) :
    Except Json.ShapeFault Options :=
  match field with
  | "root_alias" => return { options with rootAlias := ← value.asString }
  | "record_label" => return { options with recordLabel := ← value.asString }
  | "id_key" => return { options with idKey := ← value.asString }
  | "label_key" => return { options with labelKey := ← value.asString }
  | "types_key" => return { options with typesKey := ← value.asString }
  | "null_sentinel" => return { options with nullSentinel := ← value.asString }
  | "default_limit" => return { options with defaultLimit := ← value.asCount 64 }
  | "default_collect_limit" =>
    return { options with defaultCollectLimit := ← value.asCount 64 }
  | _ => return options

/-- Reads options; what is left out keeps its default. -/
def ofJson : Json → Except Json.ShapeFault Options
  | .object fields => Json.writeFields write fields {}
  | .array items => Json.writeItems write fieldNames items {}
  | v => .error (.mismatch v "struct CompileOptions")

/-- The options as an object, all fields written out. -/
def toJson (options : Options) : Json :=
  .object [
    ("root_alias", .string options.rootAlias),
    ("record_label", .string options.recordLabel),
    ("id_key", .string options.idKey),
    ("label_key", .string options.labelKey),
    ("types_key", .string options.typesKey),
    ("null_sentinel", .string options.nullSentinel),
    ("default_limit", .number (.int options.defaultLimit)),
    ("default_collect_limit", .number (.int options.defaultCollectLimit))]

end Options
end GraphSearch
