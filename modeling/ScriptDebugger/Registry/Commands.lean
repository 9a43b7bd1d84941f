import ScriptDebugger.Registry

/-! The operations on a registry as they are carried out: in place, one table after the other. What a
command has changed before it is refused stays changed. -/
namespace ScriptDebugger.Registry

abbrev Command := EStateM Error Registry

namespace Command

def ofResult : Result α → Command α
  | .ok x => pure x
  | .error e => throw e

def reading (f : Registry → Result α) : Command α := do
  ofResult (f (← get))

def setDebugInfo (contract : ContractHash) (metadata dump : String) : Command Unit := do
  let p ← ofResult (Profile.ofTexts contract metadata dump)
  modify fun r => { r with coverage := r.coverage.seed contract p.map.opcodes.keys }
  modify fun r => { r with profiles := r.profiles.insert contract p }

def forget (contract : ContractHash) : Command Bool := do
  let existed := ((← get).profile? contract).isSome
  modify fun r => { r with profiles := r.profiles.erase contract }
  modify fun r => { r with breakpoints := r.breakpoints.erase contract }
  modify fun r => { r with coverage := r.coverage.erase contract }
  return existed

def deleteDebugInfo (contracts : List ContractHash) : Command (Std.ExtTreeMap ContractHash Bool) :=
  contracts.foldlM (fun answers contract => return answers.insert contract (← forget contract)) ∅

def onBreakpoints (f : Breakpoints → α × Breakpoints) : Command α :=
  modifyGet fun r =>
    let (answers, breakpoints) := f r.breakpoints
    (answers, { r with breakpoints })

def setAssemblyBreakpoints (contract : ContractHash) (offsets : List Nat) :
    Command (Std.ExtTreeMap Nat Bool) := do
  if let some p := (← get).profile? contract then
    if let some offset := offsets.find? fun o => (p.map.opcode? o).isNone then
      throw (.invalidOffset contract offset)
  onBreakpoints (·.addAssembly contract offsets)

def deleteAssemblyBreakpoints (contract : ContractHash) (offsets : List Nat) :
    Command (Std.ExtTreeMap Nat Bool) :=
  onBreakpoints (·.removeAssembly contract offsets)

def setSourceBreakpoints (contract : ContractHash) (locations : List SourceLocation) :
    Command Unit := do
  let p ← reading (·.profile contract)
  if let some location := locations.find? fun l => !p.map.locations.contains l then
    throw (.invalidLocation location)
  onBreakpoints fun b => ((), b.addSource contract locations)

def deleteSourceBreakpoints (contract : ContractHash) (locations : List SourceLocation) :
    Command (List (SourceLocation × Bool)) := do
  reading fun r => discard (r.profile contract)
  onBreakpoints (·.removeSource contract locations)

def clearCoverage (contract : ContractHash) : Command Flags := do
  reading fun r => discard (r.profile contract)
  modify fun r => { r with coverage := r.coverage.clear contract }
  return (← get).coverage[contract]?.getD ∅

end Command

end ScriptDebugger.Registry
