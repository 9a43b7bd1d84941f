import ScriptDebugger.Debugger

/-! Everything that may be asked of a debugger, and its answers. Requests are handled one after the
other; one that is refused takes its turn like any other, and those after it still run. -/
namespace ScriptDebugger

inductive Inspection where
  | slots (kind : SlotKind) (frame : Nat)
  | evaluation (frame : Nat)
  | position (frame : Nat)
  | named (name : String) (frame : Nat)
  | scope (frame : Nat)
  | frames

inductive Answer where
  | done
  | names (names : List String)
  | existed (names : Std.ExtTreeMap String Bool)
  | timestamps (times : Std.ExtTreeMap String (Option Nat))
  | report (report : DebugReport)
  | entries (entries : List (Bytes × Bytes))
  | items (items : List StackItem)
  | position (position : Nat)
  | scope (found : List Variable)
  | frames (frames : List FrameInfo)
  | contracts (contracts : List ContractHash)
  | forgotten (contracts : Std.ExtTreeMap ContractHash Bool)
  | offsets (offsets : List Nat)
  | offsetFlags (flags : Flags)
  | locations (locations : List SourceLocation)
  | locationFlags (flags : List (SourceLocation × Bool))

inductive RegistryRequest where
  | setDebugInfo (contract : ContractHash) (metadata dump : String)
  | debugInfos
  | filenames (contract : ContractHash)
  | deleteDebugInfo (contracts : List ContractHash)
  | setAssembly (contract : ContractHash) (offsets : List Nat)
  | assembly (contract : ContractHash)
  | deleteAssembly (contract : ContractHash) (offsets : List Nat)
  | setSource (contract : ContractHash) (locations : List SourceLocation)
  | source (contract : ContractHash)
  | deleteSource (contract : ContractHash) (locations : List SourceLocation)
  | locations (contract : ContractHash)
  | coverage (contract : ContractHash)
  | clearCoverage (contract : ContractHash)

inductive Request where
  | newSessions (names : List String)
  | deleteSessions (names : List String)
  | sessions
  | rename (source target : String)
  | copy (source target : String)
  | setTimestamp (name : String) (timestamp : Option Nat)
  | timestamps (names : List String)
  | invoke (i : Invocation)
  | startDebug (i : Invocation)
  | step (name : String) (mode : StepMode)
  | settle (name : String)
  | storage (name : String) (contract : ContractHash) (start : Bytes)
  | inspect (name : String) (look : Inspection)
  | registry (request : RegistryRequest)

namespace Inspection

def look (r : Registry) (v : EngineView) : Inspection → Result Answer
  | slots kind frame => return .items (← v.slots kind frame)
  | evaluation frame => return .items (← v.evaluation frame)
  | position frame => return .position (← v.position frame)
  | named name frame => return .scope [← v.findVariable r name frame]
  | scope frame => return .scope (← v.variablesAt r frame)
  | frames => return .frames (v.invocationStack r)

end Inspection

namespace RegistryRequest

-- What a request does, as a function of the tables.
def perform (r : Registry) : RegistryRequest → Result (Answer × Registry)
  | setDebugInfo contract metadata dump => return (.done, ← r.setDebugInfo contract metadata dump)
  | debugInfos => return (.contracts r.debugInfos, r)
  | filenames contract => return (.names (← r.filenames contract), r)
  | deleteDebugInfo contracts =>
    let (answers, r) := r.deleteDebugInfo contracts
    return (.forgotten answers, r)
  | setAssembly contract offsets => do
    let (answers, r) ← r.setAssemblyBreakpoints contract offsets
    return (.offsetFlags answers, r)
  | assembly contract => return (.offsets (r.assemblyBreakpoints contract), r)
  | deleteAssembly contract offsets =>
    let (answers, r) := r.deleteAssemblyBreakpoints contract offsets
    return (.offsetFlags answers, r)
  | setSource contract lines => do
    return (.locations lines, ← r.setSourceBreakpoints contract lines)
  | source contract => return (.locations (← r.sourceBreakpoints contract), r)
  | deleteSource contract lines => do
    let (answers, r) ← r.deleteSourceBreakpoints contract lines
    return (.locationFlags answers, r)
  | locations contract => return (.locations (← r.locations contract), r)
  | coverage contract => return (.offsetFlags (← r.coverageOf contract), r)
  | clearCoverage contract => do
    let (answers, r) ← r.clearCoverage contract
    return (.offsetFlags answers, r)

open Registry.Command (reading)

-- How it is carried out on them.
def command : RegistryRequest → Registry.Command Answer
  | setDebugInfo contract metadata dump => do
    Registry.Command.setDebugInfo contract metadata dump
    return .done
  | debugInfos => return .contracts (← get).debugInfos
  | filenames contract => return .names (← reading (·.filenames contract))
  | deleteDebugInfo contracts => return .forgotten (← Registry.Command.deleteDebugInfo contracts)
  | setAssembly contract offsets =>
    return .offsetFlags (← Registry.Command.setAssemblyBreakpoints contract offsets)
  | assembly contract => return .offsets ((← get).assemblyBreakpoints contract)
  | deleteAssembly contract offsets =>
    return .offsetFlags (← Registry.Command.deleteAssemblyBreakpoints contract offsets)
  | setSource contract lines => do
    Registry.Command.setSourceBreakpoints contract lines
    return .locations lines
  | source contract => return .locations (← reading (·.sourceBreakpoints contract))
  | deleteSource contract lines =>
    return .locationFlags (← Registry.Command.deleteSourceBreakpoints contract lines)
  | locations contract => return .locations (← reading (·.locations contract))
  | coverage contract => return .offsetFlags (← reading (·.coverageOf contract))
  | clearCoverage contract => return .offsetFlags (← Registry.Command.clearCoverage contract)

end RegistryRequest

namespace Debugger

def command : Request → Command Answer
  | .newSessions names => onTable do
    modify (·.renew names)
    return .names names
  | .deleteSessions names => onTable do return .existed (← modifyGet (·.delete names))
  | .sessions => onTable do return .names (← get).names
  | .rename source target => onTable do
    SessionTable.Command.rename source target
    return .done
  | .copy source target => onTable do
    SessionTable.Command.copy source target
    return .done
  | .setTimestamp name timestamp => onTable do
    modify (·.setTimestamp name timestamp)
    return .done
  | .timestamps names => onTable do return .timestamps (← modifyGet (·.timestamps names))
  | .invoke i => return .report (← invoke i)
  | .startDebug i => return .report (← startDebug i)
  | .step name mode => return .report (← step name mode)
  | .settle name => do
    putSession (← existing name).settle
    return .done
  | .storage name contract start => return .entries ((← existing name).snapshot.find contract start)
  | .inspect name look => inspect name look.look
  | .registry request => onRegistry request.command

def handle (d : Debugger) (request : Request) : Result Answer × Debugger :=
  match (command request).run d with
  | .ok answer d => (.ok answer, d)
  | .error e d => (.error e, d)

def serve (d : Debugger) : List Request → List (Result Answer) × Debugger
  | [] => ([], d)
  | request :: rest =>
    let (answer, next) := d.handle request
    let (answers, last) := next.serve rest
    (answer :: answers, last)

end Debugger

end ScriptDebugger
