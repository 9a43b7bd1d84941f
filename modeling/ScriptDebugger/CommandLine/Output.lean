import ScriptDebugger.CommandLine
import ScriptDebugger.Config.Settings
import ScriptDebugger.Files.Artifacts
import ScriptDebugger.Json.Printer
import ScriptDebugger.Text.Style

/-! What the commands print. The settings are read before a command looks at its files, although no
command of this kind needs one. Files stand for no deployed contract, so their profile has the hash
of zeros. A check of breakpoints prints all locations before it is refused for one. -/
namespace ScriptDebugger.CommandLine

open Text

structure Outcome where
  lines : List String := []
  failure : Option Error := none

def Outcome.text (o : Outcome) : String := String.join (o.lines.map (· ++ "\n"))

def ArtifactPaths.dumpPath (p : ArtifactPaths) : Result String :=
  match p.dump.or (Path.siblingDump? p.metadata) with
  | some path => return path
  | none => throw (.invalidArguments (.noSibling p.metadata))

def ArtifactPaths.profile (p : ArtifactPaths) (files : Files) : Result Profile := do
  let dump ← p.dumpPath
  (← Artifacts.load files p.metadata dump).profile .zero

def names (ds : List VariableDescriptor) : List String := ds.map VariableDescriptor.name

def commas (xs : List String) : String := ", ".intercalate xs

def padLeft (width : Nat) (s : String) : String :=
  String.ofList (List.replicate (width - s.length) ' ') ++ s

namespace Inspect

def methodToJson (m : MethodInfo) : Json :=
  .ofFields
    [("name", .text m.name), ("range", .text s!"{m.first}-{m.last}"),
     ("parameters", .texts (names m.parameters)), ("variables", .texts (names m.locals)),
     ("returnType", .ofOption .text m.returnType)]

def lineStartToJson (offset : Nat) (line : SourceLine) : Json :=
  .ofFields
    [("offset", .nat offset), ("file", .text line.location.file),
     ("line", .nat line.location.line), ("text", .ofOption .text line.text)]

def toJson (p : Profile) : Json :=
  .ofFields
    [("methods", .list (p.info.methods.map methodToJson)),
     ("staticVariables", .texts (names p.info.statics)),
     ("filenames", .texts p.map.filenames.toList),
     ("instructionCount", .nat p.map.opcodes.size),
     ("lineStarts", .list (p.map.lineStarts.toList.map fun (o, line) => lineStartToJson o line))]

def methodLine (color : Bool) (m : MethodInfo) : String :=
  let name := paint color .strong m.name
  let range := paint color .faint s!"[{m.first}..={m.last}]"
  s!"  {name}({commas (names m.parameters)})  {range}"

def lineStartLine (color : Bool) (offset : Nat) (line : SourceLine) : String :=
  let place := paint color .place line.location.text
  let shown := trim (line.text.getD "")
  s!"  {padLeft 6 (toString offset)}  {place}  {shown}"

def toLines (color : Bool) (verbosity : Verbosity) (p : Profile) : List String :=
  let heading := paint color .heading
  let statics := commas (names p.info.statics)
  let files := commas p.map.filenames.toList
  let starts := p.map.lineStarts.toList
  [heading "Methods"] ++ p.info.methods.map (methodLine color) ++
    (if p.info.statics.isEmpty then [] else [heading "Statics:" ++ " " ++ statics]) ++
    [heading "Files:" ++ " " ++ files,
     heading "Code:" ++ s!" {p.map.opcodes.size} instructions, {starts.length} line starts"] ++
    (if verbosity = .quiet then [] else starts.map fun (o, line) => lineStartLine color o line)

end Inspect

namespace CheckBreakpoints

def offsets (p : Profile) (l : SourceLocation) : List Nat :=
  p.map.lineStarts.toList.filterMap fun (o, line) => if line.location = l then some o else none

def locationLine (color : Bool) (p : Profile) (l : SourceLocation) : String :=
  match offsets p l with
  | [] => paint color .bad "✗" ++ s!" {l.text}  no code generated"
  | os => paint color .good "✓" ++ s!" {l.text}  offset {commas (os.map toString)}"

def failure (p : Profile) (ls : List SourceLocation) : Option Error :=
  let registry : Registry := { profiles := Std.ExtTreeMap.ofList [(p.contract, p)] }
  match registry.setSourceBreakpoints p.contract ls with
  | .ok _ => none
  | .error e => some e

end CheckBreakpoints

def Command.paths : Command → ArtifactPaths
  | .inspect p _ => p
  | .checkBreakpoints p _ => p

def Command.outcome (color : Bool) (verbosity : Verbosity) (p : Profile) : Command → Outcome
  | .inspect _ .json => { lines := [(Inspect.toJson p).pretty] }
  | .inspect _ .text => { lines := Inspect.toLines color verbosity p }
  | .checkBreakpoints _ ls =>
    { lines := ls.map (CheckBreakpoints.locationLine color p)
      failure := CheckBreakpoints.failure p ls }

namespace Request

def run (r : Request) (files : Files) (environment directory : Option String) (color : Bool) :
    Outcome :=
  match Config.discover files r.config environment directory with
  | .error e => { failure := some e }
  | .ok _ =>
    match r.command.paths.profile files with
    | .error e => { failure := some e }
    | .ok p => r.command.outcome color r.verbosity p

def paths (r : Request) (environment directory : Option String) : List String :=
  let artifacts := r.command.paths
  (r.config.or environment).toList ++ (directory.map Config.userPath).toList ++
    [artifacts.metadata] ++ artifacts.dumpPath.toOption.toList

end Request

end ScriptDebugger.CommandLine
