import ScriptDebugger.Machine.Engine

/-! What can be seen of an engine that stands still. Inspection and reports read views only, so
they say the same of a live engine and of a recorded one. Frames and stacks are listed from the
top. -/
namespace ScriptDebugger

structure FrameView where
  contract : ContractHash
  position : Nat
  next? : Option Instruction
  scriptLength : Nat
  arguments : Option (List StackItem)
  locals : Option (List StackItem)
  statics : Option (List StackItem)
  evaluation : List StackItem

structure FaultInfo where
  message : String
  stackTrace : Option String := none
  deriving DecidableEq, Repr

structure EngineView where
  state : VmState
  frames : List FrameView
  gas : Int
  fault : Option FaultInfo
  logs : List LogEntry
  results : List StackItem

namespace FrameView

def slots (f : FrameView) : SlotKind → Option (List StackItem)
  | .arguments => f.arguments
  | .locals => f.locals
  | .statics => f.statics

end FrameView

def Frame.view (f : Frame) : FrameView where
  contract := f.contract
  position := f.position
  next? := f.fetched.instruction?
  scriptLength := f.script.length
  arguments := f.arguments
  locals := f.locals
  statics := f.statics
  evaluation := f.evaluation

def Engine.view (e : Engine) : EngineView where
  state := e.state
  frames := e.frames.map Frame.view
  gas := e.gas
  fault := e.fault.map fun fault => ⟨fault.message, none⟩
  logs := e.logs
  results := e.results

end ScriptDebugger
