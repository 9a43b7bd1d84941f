import ScriptDebugger.Error

/-! The command line. Options stand at two levels, before the command and after it; an option that
both levels have may be given at each, and the one after the command wins. Arguments are taken
from the left: a value is looked at when the next option begins, and what an option rules out or
a command lacks is looked at last, for the command before the level above it. -/
namespace ScriptDebugger.CommandLine

inductive OutputFormat where
  | text
  | json
  deriving DecidableEq, Repr

inductive Verbosity where
  | quiet
  | normal
  | verbose
  deriving DecidableEq, Repr

def Verbosity.logLevel : Verbosity → String
  | .quiet => "error"
  | .normal => "warn"
  | .verbose => "debug"

structure ArtifactPaths where
  metadata : String
  dump : Option String
  deriving DecidableEq, Repr

inductive Command where
  | inspect (paths : ArtifactPaths) (output : OutputFormat)
  | checkBreakpoints (paths : ArtifactPaths) (locations : List SourceLocation)
  deriving DecidableEq, Repr

structure Request where
  verbosity : Verbosity
  config : Option String
  command : Command
  deriving DecidableEq, Repr

inductive UsageError where
  | help
  | version
  | helpOnMissing
  | invalidSubcommand
  | missingSubcommand
  | missingRequired
  | conflict
  | unknownArgument
  | invalidValue
  | tooManyValues
  | valueValidation
  deriving DecidableEq, Repr

def UsageError.exitCode : UsageError → Nat
  | .help | .version => 0
  | _ => 2

inductive Opt where
  | verbose
  | quiet
  | config
  | help
  | version
  | debugInfo
  | dump
  | output
  | locations
  deriving DecidableEq, Repr

def Opt.takesValue : Opt → Bool
  | .config | .debugInfo | .dump | .output | .locations => true
  | _ => false

def Opt.long? : Opt → Option String
  | .verbose => some "verbose"
  | .quiet => some "quiet"
  | .config => some "config"
  | .help => some "help"
  | .version => some "version"
  | .debugInfo => some "debug-info"
  | .dump => some "dump"
  | .output => some "output"
  | .locations => none

def Opt.short? : Opt → Option Char
  | .verbose => some 'v'
  | .quiet => some 'q'
  | .help => some 'h'
  | .version => some 'V'
  | _ => none

inductive Level where
  | top
  | inspect
  | checkBreakpoints
  deriving DecidableEq, Repr

def Level.options : Level → List Opt
  | .top => [.verbose, .quiet, .config, .help, .version]
  | .inspect => [.verbose, .quiet, .config, .help, .debugInfo, .dump, .output]
  | .checkBreakpoints => [.verbose, .quiet, .config, .help, .debugInfo, .dump]

def Level.positional? : Level → Option Opt
  | .checkBreakpoints => some .locations
  | _ => none

structure Given where
  seen : List Opt := []
  config : Option String := none
  debugInfo : Option String := none
  dump : Option String := none
  output : OutputFormat := .text
  locations : List SourceLocation := []

def Given.has (g : Given) (o : Opt) : Bool := g.seen.contains o

structure Scan where
  given : Given := {}
  pending : Option (Opt × List String) := none
  trailing : Bool := false

def pathValue (s : String) : Except UsageError String :=
  if s = "" then throw .invalidValue else return s

def outputValue : String → Except UsageError OutputFormat
  | "text" => return .text
  | "json" => return .json
  | _ => throw .invalidValue

def locationValue (s : String) : Except UsageError SourceLocation :=
  (SourceLocation.parse s).mapError fun _ => .valueValidation

def Given.take (g : Given) (o : Opt) (values : List String) : Except UsageError Given := do
  if o.takesValue ∧ values.isEmpty then throw .invalidValue
  if o = .help then throw .help
  if o = .version then throw .version
  if o ≠ .locations ∧ g.has o then throw .conflict
  let g := { g with seen := o :: g.seen }
  let first := values.headD ""
  match o with
  | .config => return { g with config := some (← pathValue first) }
  | .debugInfo => return { g with debugInfo := some (← pathValue first) }
  | .dump => return { g with dump := some (← pathValue first) }
  | .output => return { g with output := ← outputValue first }
  | .locations => return { g with locations := g.locations ++ (← values.mapM locationValue) }
  | _ => return g

namespace Scan

def settle (s : Scan) : Except UsageError Scan :=
  match s.pending with
  | none => return s
  | some (o, values) => return { s with given := ← s.given.take o values, pending := none }

def awaits (s : Scan) : Option Opt :=
  match s.pending with
  | some (.locations, _) => none
  | some (o, []) => some o
  | _ => none

def takeNow (s : Scan) (o : Opt) (values : List String) : Except UsageError Scan := do
  let s ← s.settle
  return { s with given := ← s.given.take o values }

def long (s : Scan) (level : Level) (body : List Char) : Except UsageError Scan := do
  let name := String.ofList (body.takeWhile (· ≠ '='))
  let attached := match body.dropWhile (· ≠ '=') with
    | [] => none
    | _ :: v => some (String.ofList v)
  match level.options.find? fun o => o.long? = some name with
  | none => throw .unknownArgument
  | some o =>
    if o.takesValue then
      match attached with
      | some v => s.takeNow o [v]
      | none => return { (← s.settle) with pending := some (o, []) }
    else if attached.isSome then throw .tooManyValues
    else s.takeNow o []

def short (s : Scan) (level : Level) : List Char → Except UsageError Scan
  | [] => return s
  | c :: rest =>
    match level.options.find? fun o => o.short? = some c with
    | none => throw .unknownArgument
    | some o => do short (← s.takeNow o []) level rest

def bare (s : Scan) (level : Level) (arg : String) (error : UsageError) : Except UsageError Scan :=
  match level.positional? with
  | none => throw error
  | some o =>
    match s.pending with
    | some (p, values) =>
      if p = o then return { s with pending := some (o, values ++ [arg]) }
      else do return { (← s.settle) with pending := some (o, [arg]) }
    | none => return { s with pending := some (o, [arg]) }

def step (s : Scan) (level : Level) (arg : String) (error : UsageError) : Except UsageError Scan :=
  if s.trailing then s.bare level arg error
  else match arg.toList with
    | ['-', '-'] => return { s with trailing := true }
    | '-' :: '-' :: body => s.long level body
    | '-' :: c :: body => s.short level (c :: body)
    | _ =>
      match s.awaits with
      | some o => return { s with pending := some (o, [arg]) }
      | none => s.bare level arg error

end Scan

def checkConflicts (g : Given) : Except UsageError Unit :=
  if g.has .verbose ∧ g.has .quiet then throw .conflict else return ()

def scanCommand (level : Level) (args : List String) : Except UsageError Given := do
  let s ← args.foldlM (fun (s : Scan) arg => s.step level arg .unknownArgument) {}
  let s ← s.settle
  checkConflicts s.given
  return s.given

def paths (g : Given) : Except UsageError ArtifactPaths :=
  match g.debugInfo with
  | some metadata => return ⟨metadata, g.dump⟩
  | none => throw .missingRequired

def command (level : Level) (g : Given) : Except UsageError Command := do
  match level with
  | .checkBreakpoints =>
    let p ← paths g
    if g.locations.isEmpty then throw .missingRequired
    return .checkBreakpoints p g.locations
  | _ => return .inspect (← paths g) g.output

def commandLevel? : String → Option Level
  | "inspect" => some .inspect
  | "check-breakpoints" => some .checkBreakpoints
  | _ => none

def isCommandName (s : String) : Bool := s = "help" || (commandLevel? s).isSome

def helpOn : List String → UsageError
  | [] => .help
  | [name] => if isCommandName name then .help else .invalidSubcommand
  | _ => .invalidSubcommand

def finish (top below : Given) (level : Level) : Except UsageError Request := do
  checkConflicts top
  let quiet := top.has .quiet || below.has .quiet
  let verbose := top.has .verbose || below.has .verbose
  return {
    verbosity := if quiet then .quiet else if verbose then .verbose else .normal
    config := below.config.or top.config
    command := ← command level below }

def scanTop (s : Scan) : List String → Except UsageError Request
  | [] => do
    let s ← s.settle
    throw (if s.given.seen.isEmpty then .helpOnMissing else .missingSubcommand)
  | arg :: rest => do
    if !s.trailing && s.awaits.isNone then
      if arg = "help" then throw (helpOn rest)
      if let some level := commandLevel? arg then
        let below ← scanCommand level rest
        discard (command level below)
        return ← finish (← s.settle).given below level
    let unexpected := if s.trailing && isCommandName arg then .unknownArgument else .invalidSubcommand
    scanTop (← s.step .top arg unexpected) rest

def parse (args : List String) : Except UsageError Request := scanTop {} args

end ScriptDebugger.CommandLine
