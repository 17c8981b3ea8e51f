import GraphSearch.Command.Arguments
import GraphSearch.Search
/-!
# Running a command

A command reads its settings, then its input, and prints one text.  What it reads from
is a `World`, in any monad, so that the whole run is one definition whether files are
really read or only looked up.

The settings come from the file named on the command line or by the environment, which
must exist; else from the user's own settings file, if there is one; else they are the
defaults.  What goes wrong is a `Failure`: what was being done, and the cause.
-/

namespace GraphSearch.Command

/-! ## 1.  The world -/

/-- Why a file cannot be read. -/
inductive ReadFailure where
  | absent
  | notDirectory
  | isDirectory
  | nameTooLong
  | denied
  | notText
  | other (message : String)
  deriving DecidableEq, Repr, Inhabited

/-- The wording of a failure to read. -/
def ReadFailure.message : ReadFailure → String
  | .absent => "No such file or directory (os error 2)"
  | .notDirectory => "Not a directory (os error 20)"
  | .isDirectory => "Is a directory (os error 21)"
  | .nameTooLong => "File name too long (os error 36)"
  | .denied => "Permission denied (os error 13)"
  | .notText => "stream did not contain valid UTF-8"
  | .other message => message

/-- There is nothing under the name that could not be read. -/
def ReadFailure.isMissing : ReadFailure → Bool
  | .absent | .notDirectory | .nameTooLong => true
  | .isDirectory | .denied | .notText | .other _ => false

/-- What a command can look at. -/
structure World (m : Type → Type) where
  /-- The value of an environment variable. -/
  environment : String → Option String
  contents : String → m (Except ReadFailure String)
  standardInput : m (Except ReadFailure String)

/-! ## 2.  Failures and outcomes -/

/-- What could not be done, and why. -/
structure Failure where
  doing : String
  cause : Option String := none
  deriving DecidableEq, Repr, Inhabited

/-- The report of a failure; the lines of a cause are indented. -/
def Failure.report (failure : Failure) : String :=
  let indent (c : Char) : String := if c = '\n' then "\n    " else c.toString
  "Error: " ++ failure.doing ++
    (match failure.cause with
    | some cause => "\n\nCaused by:\n    " ++ String.join (cause.toList.map indent)
    | none => "")

/-- How a command ends. -/
inductive Outcome where
  | printed (text : String)
  | failed (failure : Failure)
  | refused (refusal : Refusal)
  deriving DecidableEq, Repr, Inhabited

/-! ## 3.  Settings -/

/-- The variable that names the settings file. -/
def configVariable : String := "STRATA_CONFIG"

/-- The variable that keeps the user's own settings file from being read. -/
def testVariable : String := "STRATA_TEST_MODE"

/-- A name in a directory. -/
def inDirectory (directory name : String) : String :=
  if directory.toList.getLast? = some '/' then directory ++ name
  else directory ++ "/" ++ name

/-- The user's own settings file, if the environment tells where it would be. -/
def userConfigPath (environment : String → Option String) : Option String :=
  let directory := match environment "XDG_CONFIG_HOME" with
    | some path =>
      if path.toList.head? = some '/' then some path
      else (environment "HOME").map (inDirectory · ".config")
    | none => (environment "HOME").map (inDirectory · ".config")
  directory.map fun directory => inDirectory directory "strata/config.toml"

/-- Reads settings from what a file was read as. -/
def settingsOf (path : String) (content : Except ReadFailure String) :
    Except Failure Settings :=
  match content with
  | .error failure =>
    .error ⟨"Failed to read config file: " ++ path, some failure.message⟩
  | .ok text => match Settings.parse text with
    | some settings => .ok settings
    | none => .error ⟨"Failed to parse config file: " ++ path, none⟩

/-- Reads the settings. -/
def loadSettings {m : Type → Type} [Monad m] (world : World m) (path : Option String) :
    m (Except Failure Settings) := do
  match path with
  | some path =>
    match ← world.contents path with
    | .error failure =>
      if failure.isMissing then return .error ⟨"Config file not found: " ++ path, none⟩
      else return settingsOf path (.error failure)
    | .ok text => return settingsOf path (.ok text)
  | none =>
    if (world.environment testVariable).isSome then return .ok {}
    else match userConfigPath world.environment with
      | none => return .ok {}
      | some path =>
        match ← world.contents path with
        | .error failure =>
          if failure.isMissing then return .ok {} else return settingsOf path (.error failure)
        | .ok text => return settingsOf path (.ok text)

/-! ## 4.  Tasks -/

/-- The path is a hyphen, which stands for the standard input; separators and dots after
it, which name the same place, do not matter. -/
def isHyphen (path : String) : Bool :=
  match path.splitOn "/" with
  | "-" :: others => others.all fun name => name = "" || name = "."
  | _ => false

/-- Reads the input of a task: a file, or the standard input if none is named. -/
def loadInput {m : Type → Type} [Monad m] (world : World m) (path : Option String) :
    m (Except Failure String) := do
  match path.filter (!isHyphen ·) with
  | some path =>
    return (← world.contents path).mapError fun failure =>
      ⟨"Failed to read input: " ++ path, some failure.message⟩
  | none =>
    return (← world.standardInput).mapError fun failure =>
      ⟨"Failed to read stdin", some failure.message⟩

/-- Normalizes the text of a request. -/
def normalizeText (text : String) : Except Failure String :=
  match Json.parse text with
  | .ok value => .ok (Criteria.normalize value).pretty
  | .error error => .error ⟨"Input is not valid JSON", some error.message⟩

/-- Compiles the text of a request. -/
def compileText (options : Options) (format : OutputFormat) (text : String) :
    Except Failure String :=
  match Request.parse text with
  | .error rejection => .error ⟨"Failed to decode search request", some rejection.message⟩
  | .ok request => match Search.ofRequest options request with
    | .error rejection => .error ⟨"Failed to compile search request", some rejection.message⟩
    | .ok search => match format with
      | .cypher => .ok search.statement
      | .json => .ok search.toJson.pretty

/-- Does a task; the text is what is to be printed. -/
def runTask {m : Type → Type} [Monad m] (world : World m) (settings : Settings)
    (task : Task) : m (Except Failure String) := do
  match task with
  | .normalize input => return (← loadInput world input).bind normalizeText
  | .compile input format =>
    return (← loadInput world input).bind (compileText settings.compiler format)
  | .config => return .ok settings.toToml

/-- Runs a command line. -/
def run {m : Type → Type} [Monad m] (world : World m) (arguments : List String) :
    m Outcome := do
  match readArguments (world.environment configVariable) arguments with
  | .error refusal => return .refused refusal
  | .ok invocation =>
    match ← loadSettings world invocation.configPath with
    | .error failure => return .failed failure
    | .ok settings =>
      match ← runTask world settings invocation.task with
      | .error failure => return .failed failure
      | .ok text => return .printed (text ++ "\n")

/-! ## 5.  Texts of the command line itself -/

/-- The version of the command. -/
def versionText : String := "strata 0.1.0\n"

/-- What the command can do. -/
def helpText : String := "strata - compile search DSL requests into property-graph queries

Usage: strata [OPTIONS] <COMMAND>

Commands:
  normalize  Print a request with object-shaped logical groups rewritten as arrays
  compile    Compile a search request
  config     Print the effective configuration as TOML
  help       Print this message or the help of the given subcommand(s)

Options:
  -l, --log-level <LOG_LEVEL>  Set log level (off, error, warn, info, debug, trace)
  -v, --verbose                Enable verbose logging (shortcut for --log-level=debug)
  -C, --config <CONFIG>        Config file path (defaults to ~/.config/strata/config.toml)
  -h, --help                   Print help
  -V, --version                Print version
"

/-- The text printed on the standard output, and the exit code. -/
def Outcome.output : Outcome → String × Nat
  | .printed text => (text, 0)
  | .failed _ => ("", 1)
  | .refused .help => (helpText, 0)
  | .refused .version => (versionText, 0)
  | .refused .usage => ("", 2)

end GraphSearch.Command
