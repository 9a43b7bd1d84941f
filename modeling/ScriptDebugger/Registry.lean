import ScriptDebugger.Breakpoints
import ScriptDebugger.Coverage
import ScriptDebugger.Source.DebugInfo
import ScriptDebugger.Source.SourceMap

/-! What is known of each contract for debugging: its profile, its breakpoints and its coverage.
Breakpoints on source lines and coverage need a profile; breakpoints on offsets do not, but a
profile that is there says which offsets are instructions. -/
namespace ScriptDebugger

structure Profile where
  contract : ContractHash
  info : DebugInfo
  map : SourceMap

def Profile.ofTexts (contract : ContractHash) (metadata dump : String) : Result Profile := do
  let info ← DebugInfo.parse metadata
  let map ← SourceMap.build dump
  return ⟨contract, info, map⟩

structure Registry where
  profiles : Std.ExtTreeMap ContractHash Profile := ∅
  breakpoints : Breakpoints := ∅
  coverage : Coverage := ∅

namespace Registry

def profile? (r : Registry) (contract : ContractHash) : Option Profile := r.profiles[contract]?

def profile (r : Registry) (contract : ContractHash) : Result Profile :=
  match r.profile? contract with
  | some p => return p
  | none => throw (.notRegistered contract none)

def setDebugInfo (r : Registry) (contract : ContractHash) (metadata dump : String) :
    Result Registry := do
  let p ← Profile.ofTexts contract metadata dump
  return { r with
    profiles := r.profiles.insert contract p
    coverage := r.coverage.seed contract p.map.opcodes.keys }

def forget (r : Registry) (contract : ContractHash) : Registry :=
  ⟨r.profiles.erase contract, r.breakpoints.erase contract, r.coverage.erase contract⟩

def deleteDebugInfo (r : Registry) (contracts : List ContractHash) :
    Std.ExtTreeMap ContractHash Bool × Registry :=
  contracts.foldl (fun (answers, r) contract =>
    (answers.insert contract (r.profile? contract).isSome, r.forget contract)) (∅, r)

def debugInfos (r : Registry) : List ContractHash := r.profiles.keys

def filenames (r : Registry) (contract : ContractHash) : Result (List String) := do
  return (← r.profile contract).map.filenames.toList

def locations (r : Registry) (contract : ContractHash) : Result (List SourceLocation) := do
  return (← r.profile contract).map.locations.toList

def setAssemblyBreakpoints (r : Registry) (contract : ContractHash) (offsets : List Nat) :
    Result (Std.ExtTreeMap Nat Bool × Registry) := do
  if let some p := r.profile? contract then
    if let some offset := offsets.find? fun o => (p.map.opcode? o).isNone then
      throw (.invalidOffset contract offset)
  let (answers, breakpoints) := r.breakpoints.addAssembly contract offsets
  return (answers, { r with breakpoints })

def assemblyBreakpoints (r : Registry) (contract : ContractHash) : List Nat :=
  (r.breakpoints.of contract).assembly.toList

def deleteAssemblyBreakpoints (r : Registry) (contract : ContractHash) (offsets : List Nat) :
    Std.ExtTreeMap Nat Bool × Registry :=
  let (answers, breakpoints) := r.breakpoints.removeAssembly contract offsets
  (answers, { r with breakpoints })

def setSourceBreakpoints (r : Registry) (contract : ContractHash)
    (locations : List SourceLocation) : Result Registry := do
  let p ← r.profile contract
  if let some location := locations.find? fun l => !p.map.locations.contains l then
    throw (.invalidLocation location)
  return { r with breakpoints := r.breakpoints.addSource contract locations }

def sourceBreakpoints (r : Registry) (contract : ContractHash) : Result (List SourceLocation) := do
  discard (r.profile contract)
  return (r.breakpoints.of contract).source.toList

def deleteSourceBreakpoints (r : Registry) (contract : ContractHash)
    (locations : List SourceLocation) : Result (List (SourceLocation × Bool) × Registry) := do
  discard (r.profile contract)
  let (answers, breakpoints) := r.breakpoints.removeSource contract locations
  return (answers, { r with breakpoints })

def coverageOf (r : Registry) (contract : ContractHash) : Result Flags := do
  discard (r.profile contract)
  return r.coverage[contract]?.getD ∅

def clearCoverage (r : Registry) (contract : ContractHash) : Result (Flags × Registry) := do
  discard (r.profile contract)
  let coverage := r.coverage.clear contract
  return (coverage[contract]?.getD ∅, { r with coverage })

end Registry

end ScriptDebugger
