import ScriptDebugger.Machine.View
import ScriptDebugger.Registry

/-! Reading an engine that stands still. Frames count from the top. The variables of a frame are
those of the method its position lies in, parameters before locals, and then the static fields;
one whose slot does not exist yet is left out. -/
namespace ScriptDebugger

structure Variable where
  name : String
  type : String
  kind : SlotKind
  item : StackItem

def SlotKind.name : SlotKind → String
  | .arguments => "argument"
  | .locals => "local"
  | .statics => "static"

structure FrameInfo where
  contract : ContractHash
  position : Nat
  opcode : Option Opcode
  scriptLength : Nat
  source : Option SourceLine
  deriving DecidableEq, Repr

def FrameInfo.toJson (f : FrameInfo) : Json :=
  let source := match f.source with
    | none => []
    | some line =>
      [("file", .text line.location.file), ("line", Json.nat line.location.line),
       ("text", Json.ofOption .text line.text)]
  .ofFields (source ++
    [("instructionPointer", .nat f.position),
     ("opcode", .ofOption (fun op => .text op.mnemonic) f.opcode),
     ("scriptHash", .text f.contract.text), ("scriptLen", .nat f.scriptLength)])

namespace EngineView

def frame (v : EngineView) (index : Nat) : Result FrameView :=
  match v.frames[index]? with
  | some f => return f
  | none => throw (.frameOutOfRange index v.frames.length)

def position (v : EngineView) (index : Nat) : Result Nat := do
  return (← v.frame index).position

def slots (v : EngineView) (kind : SlotKind) (index : Nat) : Result (List StackItem) := do
  return ((← v.frame index).slots kind).getD []

def evaluation (v : EngineView) (index : Nat) : Result (List StackItem) := do
  return (← v.frame index).evaluation

def descriptors (r : Registry) (f : FrameView) : Result (List (SlotKind × VariableDescriptor)) := do
  let info := (← r.profile f.contract).info
  let own := match info.methodAt? f.position with
    | none => []
    | some m => m.parameters.map (.arguments, ·) ++ m.locals.map (.locals, ·)
  return own ++ info.statics.map (.statics, ·)

def variableAt? (f : FrameView) (kind : SlotKind) (d : VariableDescriptor) : Option Variable := do
  let items ← f.slots kind
  return ⟨d.name, d.type, kind, ← items[d.slot]?⟩

def variablesAt (v : EngineView) (r : Registry) (index : Nat) : Result (List Variable) := do
  let f ← v.frame index
  return (← descriptors r f).filterMap fun (kind, d) => variableAt? f kind d

def findVariable (v : EngineView) (r : Registry) (name : String) (index : Nat) : Result Variable := do
  let f ← v.frame index
  let named := (← descriptors r f).filter fun (_, d) => d.name = name
  match named.findSome? fun (kind, d) => variableAt? f kind d with
  | some x => return x
  | none => throw (.variableNotFound name)

def sourceAt? (r : Registry) (contract : ContractHash) (position : Nat) : Option SourceLine :=
  (r.profile? contract).bind fun p => p.map.resolve? position

def describe (r : Registry) (f : FrameView) : FrameInfo where
  contract := f.contract
  position := f.position
  opcode := f.next?.map Instruction.opcode
  scriptLength := f.scriptLength
  source := sourceAt? r f.contract f.position

def invocationStack (v : EngineView) (r : Registry) : List FrameInfo := v.frames.map (describe r)

end EngineView

end ScriptDebugger
