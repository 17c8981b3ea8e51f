import GraphSearch.Command.Settings
/-!
# Arguments

Reads the arguments of the command line from left to right.  Options that are common
to all subcommands may stand before and after the name of the subcommand, and when one
stands in both places the inner one counts; within one place an option is given at
most once.  The first thing that is not understood ends the reading, and so does a
request for help.

An option's value is the rest of the argument, after an equals sign or not, or else the
next argument, which must not look like an option.
-/

namespace GraphSearch.Command

/-- What a compiled request is printed as. -/
inductive OutputFormat where
  | cypher
  | json
  deriving DecidableEq, Repr, Inhabited

/-- The format with the name given. -/
def OutputFormat.ofName? : String → Option OutputFormat
  | "cypher" => some .cypher
  | "json" => some .json
  | _ => none

/-- What is to be done. -/
inductive Task where
  | normalize (input : Option String)
  | compile (input : Option String) (format : OutputFormat)
  | config
  deriving DecidableEq, Repr, Inhabited

/-- A command line that was understood. -/
structure Invocation where
  task : Task
  /-- The settings file to read. -/
  configPath : Option String
  /-- The level asked for on the command line. -/
  level : Option LogLevel
  deriving DecidableEq, Repr, Inhabited

/-- Why there is nothing to be done. -/
inductive Refusal where
  | usage
  | help
  | version
  deriving DecidableEq, Repr, Inhabited

/-! ## 1.  Subcommands and options -/

/-- The subcommands. -/
inductive Subcommand where
  | normalize | compile | config
  deriving DecidableEq, Repr, Inhabited

/-- The subcommand with the name given. -/
def Subcommand.ofName? : String → Option Subcommand
  | "normalize" => some .normalize
  | "compile" => some .compile
  | "config" => some .config
  | _ => none

/-- Where an argument stands: before the name of the subcommand, or after it. -/
abbrev Place := Option Subcommand

/-- The options. -/
inductive Flag where
  | logLevel | verbose | config | format | help | version
  deriving DecidableEq, Repr, Inhabited

/-- The option with a long name, where it is known. -/
def Flag.ofLong? (place : Place) : String → Option Flag
  | "log-level" => some .logLevel
  | "verbose" => some .verbose
  | "config" => some .config
  | "help" => some .help
  | "format" => if place = some .compile then some .format else none
  | "version" => if place = none then some .version else none
  | _ => none

/-- The option with a short name, where it is known. -/
def Flag.ofShort? (place : Place) : Char → Option Flag
  | 'l' => some .logLevel
  | 'v' => some .verbose
  | 'C' => some .config
  | 'h' => some .help
  | 'f' => if place = some .compile then some .format else none
  | 'V' => if place = none then some .version else none
  | _ => none

/-- The option is followed by a value. -/
def Flag.takesValue : Flag → Bool
  | .logLevel | .config | .format => true
  | .verbose | .help | .version => false

/-! ## 2.  What was given in one place -/

/-- The options and the input given in one place. -/
structure Given where
  level : Option LogLevel := none
  verbose : Bool := false
  config : Option String := none
  format : Option OutputFormat := none
  input : Option String := none
  deriving DecidableEq, Repr, Inhabited

/-- Gives an option without a value. -/
def Given.switch (given : Given) : Flag → Except Refusal Given
  | .verbose => if given.verbose then .error .usage else .ok { given with verbose := true }
  | .help => .error .help
  | .version => .error .version
  | .logLevel | .config | .format => .error .usage

/-- Gives an option with its value; twice the same option is refused, and so is a value
that the option does not have. -/
def Given.set (given : Given) (value : String) : Flag → Except Refusal Given
  | .logLevel => match given.level, LogLevel.ofName? value with
    | none, some level => .ok { given with level := some level }
    | _, _ => .error .usage
  | .config =>
    if given.config.isSome ∨ value = "" then .error .usage
    else .ok { given with config := some value }
  | .format => match given.format, OutputFormat.ofName? value with
    | none, some format => .ok { given with format := some format }
    | _, _ => .error .usage
  | .verbose | .help | .version => .error .usage

/-- Gives the input, where there is one. -/
def Given.setInput (place : Place) (given : Given) (value : String) : Except Refusal Given :=
  match place with
  | some .normalize | some .compile =>
    if given.input.isSome ∨ value = "" then .error .usage
    else .ok { given with input := some value }
  | some .config | none => .error .usage

/-! ## 3.  Reading one place -/

/-- An argument that looks like an option, and so is no value of another. -/
def looksLikeOption (argument : List Char) : Bool :=
  match argument with
  | '-' :: _ :: _ => true
  | _ => false

/-- What one argument leaves to be done. -/
inductive Reading where
  /-- It is dealt with. -/
  | done (given : Given)
  /-- The next argument is the value of an option. -/
  | wants (flag : Flag) (given : Given)

/-- Reads a group of short options after its hyphen. -/
def readShort (place : Place) (given : Given) : List Char → Except Refusal Reading
  | [] => .ok (.done given)
  | c :: rest =>
    match Flag.ofShort? place c with
    | none => .error .usage
    | some flag =>
      if flag.takesValue then
        match rest with
        | [] => .ok (.wants flag given)
        | '=' :: value => (given.set (String.ofList value) flag).map .done
        | value => (given.set (String.ofList value) flag).map .done
      else do readShort place (← given.switch flag) rest

/-- Reads a long option after its hyphens. -/
def readLong (place : Place) (given : Given) (text : List Char) : Except Refusal Reading :=
  let name := String.ofList (text.takeWhile (· ≠ '='))
  match Flag.ofLong? place name, text.dropWhile (· ≠ '=') with
  | none, _ => .error .usage
  | some flag, [] =>
    if flag.takesValue then .ok (.wants flag given) else (given.switch flag).map .done
  | some flag, _ :: value => (given.set (String.ofList value) flag).map .done

/-- Where the reading of one place ends. -/
inductive PlaceEnd where
  | arguments
  /-- A word that is no option stands before the name of the subcommand. -/
  | word (word : String) (rest : List String)

/-- Reads the arguments of one place.  `wanted` is an option whose value comes next, and
after two hyphens no argument is an option (`plain`). -/
def readPlace (place : Place) (given : Given) (wanted : Option Flag) (plain : Bool) :
    List String → Except Refusal (Given × PlaceEnd)
  | [] => if wanted.isSome then .error .usage else .ok (given, .arguments)
  | argument :: arguments =>
    let text := argument.toList
    if plain then do
      readPlace place (← given.setInput place argument) none true arguments
    else match wanted with
    | some flag =>
      if looksLikeOption text then .error .usage
      else do readPlace place (← given.set argument flag) none false arguments
    | none =>
      match text with
      | ['-', '-'] => readPlace place given none true arguments
      | '-' :: '-' :: long => do
        match ← readLong place given long with
        | .done given => readPlace place given none false arguments
        | .wants flag given => readPlace place given (some flag) false arguments
      | '-' :: c :: short => do
        match ← readShort place given (c :: short) with
        | .done given => readPlace place given none false arguments
        | .wants flag given => readPlace place given (some flag) false arguments
      | _ =>
        if place = none then .ok (given, .word argument arguments)
        else do readPlace place (← given.setInput place argument) none false arguments

/-! ## 4.  Command lines -/

/-- The topics after the word `help`. -/
def readHelp : List String → Refusal
  | [] => .help
  | ["help"] => .help
  | [topic] => if (Subcommand.ofName? topic).isSome then .help else .usage
  | _ => .usage

/-- The settings file: the inner of those given, or else the one the environment names.
An empty name in the environment is an error wherever it would be looked at. -/
def chooseConfig (fallback outer inner : Option String) : Except Refusal (Option String) :=
  if fallback = some "" ∧ (outer = none ∨ inner = none) then .error .usage
  else .ok ((inner.or outer).or fallback)

/-- Reads a command line; `fallback` is the settings file that the environment names. -/
def readArguments (fallback : Option String) (arguments : List String) :
    Except Refusal Invocation := do
  let (outer, last) ← readPlace none {} none false arguments
  let .word word rest := last | throw .usage
  if word = "help" then throw (readHelp rest)
  let some subcommand := Subcommand.ofName? word | throw .usage
  let (inner, _) ← readPlace (some subcommand) {} none false rest
  let configPath ← chooseConfig fallback outer.config inner.config
  let level :=
    (inner.level.or outer.level).or
      (if inner.verbose ∨ outer.verbose then some .debug else none)
  let task : Task := match subcommand with
    | .normalize => .normalize inner.input
    | .compile => .compile inner.input (inner.format.getD .cypher)
    | .config => .config
  return { task, configPath, level }

end GraphSearch.Command
