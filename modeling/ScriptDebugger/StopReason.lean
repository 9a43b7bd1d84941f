/-! Why a run is suspended: a set of reasons, so that several can be asked for at once, and the
commands that step through a run, each with the reasons it asks for. -/
namespace ScriptDebugger

structure StopReason where
  bits : UInt8 := 0
  deriving DecidableEq, Repr, Inhabited

namespace StopReason

def none : StopReason := ⟨0⟩
def assemblyBreakpoint : StopReason := ⟨1⟩
def sourceBreakpoint : StopReason := ⟨2⟩
def call : StopReason := ⟨4⟩
def ret : StopReason := ⟨8⟩
def sourceLine : StopReason := ⟨16⟩

instance : OrOp StopReason := ⟨fun a b => ⟨a.bits ||| b.bits⟩⟩

def breakpoint : StopReason := assemblyBreakpoint ||| sourceBreakpoint

def contains (a b : StopReason) : Bool := a.bits &&& b.bits = b.bits

def intersects (a b : StopReason) : Bool := a.bits &&& b.bits ≠ 0

def isNone (a : StopReason) : Bool := a.bits = 0

def names : List (StopReason × String) :=
  [(assemblyBreakpoint, "AssemblyBreakpoint"), (sourceBreakpoint, "SourceCodeBreakpoint"),
   (call, "Call"), (ret, "Return"), (sourceLine, "SourceCode")]

def text (a : StopReason) : String :=
  if a.isNone then "None"
  else " | ".intercalate ((names.filter fun n => a.contains n.1).map Prod.snd)

end StopReason

inductive StepMode where
  | resume
  | stepInto
  | stepOut
  | stepOverSource
  | stepOverAssembly
  deriving DecidableEq, Repr

namespace StepMode

def all : List StepMode := [.resume, .stepInto, .stepOut, .stepOverSource, .stepOverAssembly]

def name : StepMode → String
  | .resume => "Continue"
  | .stepInto => "StepInto"
  | .stepOut => "StepOut"
  | .stepOverSource => "StepOverSource"
  | .stepOverAssembly => "StepOverAssembly"

def ofName? (s : String) : Option StepMode := all.find? fun m => m.name = s

def required : StepMode → StopReason
  | .resume | .stepOverAssembly => .breakpoint
  | .stepInto => .breakpoint ||| .call
  | .stepOut => .breakpoint ||| .ret
  | .stepOverSource => .breakpoint ||| .sourceLine

end StepMode

end ScriptDebugger
