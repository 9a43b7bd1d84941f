import Std.Data.ExtTreeMap
import Std.Data.ExtTreeSet
import ScriptDebugger.Error
import ScriptDebugger.Script.Opcode
import ScriptDebugger.Source.DumpLine

/-! Tables from the offsets of a script to its source, made from an instruction dump. Lines that
are of no known form are passed over; a mnemonic that is no opcode refuses the whole dump. -/
namespace ScriptDebugger

inductive LineContext where
  | undefined
  | method (name : String)
  | source (line : SourceLine)
  deriving DecidableEq, Repr

def LineContext.source? : LineContext → Option SourceLine
  | .source line => some line
  | _ => none

structure SourceMap where
  opcodes : Std.ExtTreeMap Nat Opcode := ∅
  lineStarts : Std.ExtTreeMap Nat SourceLine := ∅
  dense : Std.ExtTreeMap Nat LineContext := ∅
  locations : Std.ExtTreeSet SourceLocation := ∅
  filenames : Std.ExtTreeSet String := ∅

namespace SourceMap

def recognised (dump : String) : List (Nat × DumpLine) :=
  (dump.toList.splitOn '\n').zipIdx.filterMap fun (line, index) =>
    (DumpLine.parse? (String.ofList line)).map (index + 1, ·)

structure Builder where
  map : SourceMap := {}
  pending : Option SourceLine := none
  context : LineContext := .undefined

def Builder.addOpcode (b : Builder) (offset : Nat) (opcode : Opcode) : Builder :=
  let map := { b.map with
    opcodes := b.map.opcodes.insert offset opcode
    dense := b.map.dense.insert offset b.context }
  match b.pending with
  | none => { b with map }
  | some line =>
    { b with
      pending := none
      map := { map with
        lineStarts := map.lineStarts.insert offset line
        locations := map.locations.insert line.location
        filenames := map.filenames.insert line.location.file } }

def Builder.add (b : Builder) (number : Nat) : DumpLine → Result Builder
  | .opcode offset mnemonic _ =>
    match Opcode.ofMnemonic? mnemonic with
    | some opcode => return b.addOpcode offset opcode
    | none => throw (.unknownOpcode number mnemonic)
  | .source file line text =>
    let line : SourceLine := ⟨⟨file, line⟩, some text⟩
    return { b with pending := some line, context := .source line }
  | .methodStart name => return { b with pending := none, context := .method name }
  | .methodEnd _ => return { b with pending := none, context := .undefined }

def build (dump : String) : Result SourceMap := do
  let b ← (recognised dump).foldlM (fun (b : Builder) (number, line) => b.add number line) {}
  return b.map

def opcode? (m : SourceMap) (offset : Nat) : Option Opcode := m.opcodes[offset]?

def lineStart? (m : SourceMap) (offset : Nat) : Option SourceLine := m.lineStarts[offset]?

def lineAt? (m : SourceMap) (offset : Nat) : Option SourceLine :=
  m.dense[offset]?.bind LineContext.source?

def resolve? (m : SourceMap) (offset : Nat) : Option SourceLine :=
  (m.lineStart? offset).or (m.lineAt? offset)

end SourceMap

end ScriptDebugger
