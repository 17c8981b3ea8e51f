import GraphSearch.Options
import GraphSearch.Toml.Printer
import GraphSearch.Toml.Reader
/-!
# Settings

The settings of the command line: the options of the compiler, and how much is logged.
A settings file may leave out any of them, and may say things that are not settings.
`Settings.toToml` writes all of them out.
-/

namespace GraphSearch.Command

/-- How much is logged. -/
inductive LogLevel where
  | off | error | warn | info | debug | trace
  deriving DecidableEq, Repr, Inhabited

/-- The level with the name given. -/
def LogLevel.ofName? : String → Option LogLevel
  | "off" => some .off
  | "error" => some .error
  | "warn" => some .warn
  | "info" => some .info
  | "debug" => some .debug
  | "trace" => some .trace
  | _ => none

/-- The name of a level. -/
def LogLevel.name : LogLevel → String
  | .off => "off"
  | .error => "error"
  | .warn => "warn"
  | .info => "info"
  | .debug => "debug"
  | .trace => "trace"

/-- The settings of the command line. -/
structure Settings where
  compiler : Options := {}
  level : Option LogLevel := none
  deriving DecidableEq, Repr, Inhabited

namespace Settings

/-! ## 1.  Reading -/

/-- A text. -/
def asString : Toml → Option String
  | .string s => some s
  | _ => none

/-- A 64-bit natural number. -/
def asCount : Toml → Option Nat
  | .integer i => if 0 ≤ i ∧ i < Nat.pow 2 64 then some i.toNat else none
  | _ => none

/-- A level: its name, or a table with the name as its only key and nothing under it. -/
def asLevel : Toml → Option LogLevel
  | .string name => LogLevel.ofName? name
  | .table [(name, .table [])] => LogLevel.ofName? name
  | .table [(name, .array [])] => LogLevel.ofName? name
  | _ => none

/-- A field that is no setting changes nothing, but its numbers have to have values. -/
def passOver (unchanged : α) (value : Toml) : Option α :=
  if value.isSound then some unchanged else none

/-- Writes one option of the compiler. -/
def writeOption (options : Options) (field : String × Toml) : Option Options :=
  match field.1 with
  | "root_alias" => return { options with rootAlias := ← asString field.2 }
  | "record_label" => return { options with recordLabel := ← asString field.2 }
  | "id_key" => return { options with idKey := ← asString field.2 }
  | "label_key" => return { options with labelKey := ← asString field.2 }
  | "types_key" => return { options with typesKey := ← asString field.2 }
  | "null_sentinel" => return { options with nullSentinel := ← asString field.2 }
  | "default_limit" => return { options with defaultLimit := ← asCount field.2 }
  | "default_collect_limit" => return { options with defaultCollectLimit := ← asCount field.2 }
  | _ => passOver options field.2

/-- Reads the options of the compiler, from a table or from an array of them in order.
Items after the last option are not looked at.  A date is a table of parts, none of
which is an option. -/
def readOptions : Toml → Option Options
  | .table fields => fields.foldlM writeOption {}
  | .array items => (Options.fieldNames.zip items).foldlM writeOption {}
  | .date => some {}
  | _ => none

/-- Writes one logging setting. -/
def writeLogging (level : Option LogLevel) (field : String × Toml) :
    Option (Option LogLevel) :=
  match field.1 with
  | "level" => (asLevel field.2).map some
  | _ => passOver level field.2

/-- Reads the logging settings, from a table, a date, or an array of them in order, the
last two read as those of the compiler are. -/
def readLogging : Toml → Option (Option LogLevel)
  | .table fields => fields.foldlM writeLogging none
  | .array [] => some none
  | .array (level :: _) => (asLevel level).map some
  | .date => some none
  | _ => none

/-- Writes one section. -/
def writeSection (settings : Settings) (field : String × Toml) : Option Settings :=
  match field.1 with
  | "compiler" => return { settings with compiler := ← readOptions field.2 }
  | "logging" => return { settings with level := ← readLogging field.2 }
  | _ => passOver settings field.2

/-- Reads the text of a settings file. -/
def parse (text : String) : Option Settings := do
  (← Toml.parse text).foldlM writeSection {}

/-! ## 2.  Writing -/

/-- The settings as the text of a settings file. -/
def toToml (settings : Settings) : String :=
  let text (key value : String) : String := key ++ " = " ++ Toml.quote value
  let count (key : String) (value : Nat) : String := key ++ " = " ++ toString value
  let options := settings.compiler
  let lines :=
    ["[compiler]",
      text "root_alias" options.rootAlias,
      text "record_label" options.recordLabel,
      text "id_key" options.idKey,
      text "label_key" options.labelKey,
      text "types_key" options.typesKey,
      text "null_sentinel" options.nullSentinel,
      count "default_limit" options.defaultLimit,
      count "default_collect_limit" options.defaultCollectLimit,
      "",
      "[logging]"]
    ++ (match settings.level with
        | some level => [text "level" level.name]
        | none => [])
  String.join (lines.map fun line => line ++ "\n")

end Settings
end GraphSearch.Command
