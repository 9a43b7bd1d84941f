import ScriptDebugger.CommandLine.Output

/-! The program: it reads the files that a request may need, prints what the command says and exits
with zero, with one where the command failed and with two where the arguments name none. -/
namespace ScriptDebugger.CommandLine

def usage : String :=
  "Usage: script-debugger [OPTIONS] <COMMAND>

Commands:
  inspect            --debug-info <FILE> [--dump <FILE>] [--output text|json]
  check-breakpoints  --debug-info <FILE> [--dump <FILE>] <FILE:LINE>...
  help               Print this message

Options:
  -v, --verbose        Say more
  -q, --quiet          Say less
      --config <FILE>  Read the settings from a file
  -h, --help           Print this message
  -V, --version        Print the version
"

def versionLine : String := "script-debugger 0.1.0"

def UsageError.message : UsageError → String
  | .help | .helpOnMissing => usage
  | .version => versionLine
  | .invalidSubcommand => "error: no such command"
  | .missingSubcommand => "error: a command is missing"
  | .missingRequired => "error: a required argument is missing"
  | .conflict => "error: arguments exclude each other"
  | .unknownArgument => "error: unexpected argument"
  | .invalidValue => "error: a value is missing or is not one of the possible values"
  | .tooManyValues => "error: a flag takes no value"
  | .valueValidation => "error: expected <file>:<line>"

def isCode (n code : UInt32) : Bool := code = n || code = -n

def fileError : IO.Error → FileError
  | .noFileOrDirectory .. => .notFound
  | .inappropriateType _ code _ => if isCode 21 code then .isDirectory else .notDirectory
  | e@(.invalidArgument _ code _) => if isCode 36 code then .nameTooLong else .other (toString e)
  | e => .other (toString e)

def readFile (path : String) : IO (Except FileError Bytes) := do
  match Files.refusal? path with
  | some cause => return .error cause
  | none =>
    try
      let bytes ← IO.FS.readBinFile path
      return .ok bytes.toList
    catch e => return .error (fileError e)

def readFiles (paths : List String) : IO Files := do
  let table ← paths.mapM fun path => do return (path, ← readFile path)
  return fun path => (table.lookup path).getD (.error .notFound)

def settingsDirectory : IO (Option String) := do
  match ← IO.getEnv "XDG_CONFIG_HOME" with
  | some directory => return some directory
  | none => return (← IO.getEnv "HOME").map (· ++ "/.config")

def runRequest (r : Request) : IO UInt32 := do
  let environment ← IO.getEnv "NEO_DEBUGGER_CONFIG"
  let directory ← settingsDirectory
  let files ← readFiles (r.paths environment directory)
  let color := (← IO.getEnv "NO_COLOR").isNone && (← (← IO.getStdout).isTty)
  let outcome := r.run files environment directory color
  IO.print outcome.text
  match outcome.failure with
  | none => return 0
  | some e =>
    IO.eprintln s!"Error: {e.message}"
    return 1

def runProgram (args : List String) : IO UInt32 := do
  match parse args with
  | .ok request => runRequest request
  | .error e =>
    if e.exitCode = 0 then IO.println e.message else IO.eprintln e.message
    return UInt32.ofNat e.exitCode

end ScriptDebugger.CommandLine

def main (args : List String) : IO UInt32 := ScriptDebugger.CommandLine.runProgram args
