import GraphSearch.Command.Run
/-!
# The command line

Reads files and the standard input for `Command.run`, and prints what it answers.
-/

namespace GraphSearch.Command

/-- The failure that an input or output error stands for. -/
def readFailure : IO.Error → ReadFailure
  | .noFileOrDirectory .. | .noSuchThing .. => .absent
  | .inappropriateType _ _ "not a directory" => .notDirectory
  | .inappropriateType .. => .isDirectory
  | .invalidArgument _ _ "name too long" => .nameTooLong
  | .permissionDenied .. => .denied
  | e => .other (toString e)

/-- The text that bytes encode. -/
def decodeText (bytes : ByteArray) : Except ReadFailure String :=
  match String.fromUTF8? bytes with
  | some text => .ok text
  | none => .error .notText

/-- Reads a whole file. -/
def readWholeFile (path : String) : IO (Except ReadFailure String) :=
  tryCatch (do return decodeText (← IO.FS.readBinFile path)) fun e => do
    return .error (readFailure e)

/-- Reads the standard input to its end. -/
def readWholeInput : IO (Except ReadFailure String) :=
  tryCatch (do return decodeText (← (← IO.getStdin).readBinToEnd)) fun e => do
    return .error (readFailure e)

end GraphSearch.Command

open GraphSearch.Command

/-- Answers a command line in the surroundings of the process. -/
def main (arguments : List String) : IO UInt32 := do
  let names := [configVariable, testVariable, "XDG_CONFIG_HOME", "HOME"]
  let mut assigned : List (String × String) := []
  for name in names do
    if let some value ← IO.getEnv name then
      assigned := (name, value) :: assigned
  let known := assigned
  let world : World IO :=
    { environment := fun name => known.lookup name
      contents := readWholeFile
      standardInput := readWholeInput }
  let outcome ← run world arguments
  IO.print outcome.output.1
  match outcome with
  | .failed failure => IO.eprintln failure.report
  | .refused .usage => IO.eprintln helpText
  | _ => pure ()
  return outcome.output.2.toUInt32
