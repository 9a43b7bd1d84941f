import Std.Data.ExtTreeMap
import Std.Data.ExtTreeSet
import ScriptDebugger.Contract.Hash
import ScriptDebugger.Source.Location

/-! Breakpoints of each contract: a set of offsets and a set of source lines. A request goes through its
entries in order, and one that is repeated answers as it did first. To remove without naming any entry
removes them all. -/
namespace ScriptDebugger

structure BreakpointSet where
  assembly : Std.ExtTreeSet Nat := ∅
  source : Std.ExtTreeSet SourceLocation := ∅

def BreakpointSet.isEmpty (s : BreakpointSet) : Bool := s.assembly.isEmpty && s.source.isEmpty

abbrev Breakpoints := Std.ExtTreeMap ContractHash BreakpointSet

namespace Breakpoints

def of (b : Breakpoints) (contract : ContractHash) : BreakpointSet := b[contract]?.getD {}

def hasAssembly (b : Breakpoints) (contract : ContractHash) (offset : Nat) : Bool :=
  (b.of contract).assembly.contains offset

def hasSource (b : Breakpoints) (contract : ContractHash) (location : SourceLocation) : Bool :=
  (b.of contract).source.contains location

/-- Puts an offset into a set, or takes it out, and answers whether the set changed. Only the first mention
of an offset counts. -/
def setNext (present : Bool) (done : Std.ExtTreeMap Nat Bool × Std.ExtTreeSet Nat) (offset : Nat) :
    Std.ExtTreeMap Nat Bool × Std.ExtTreeSet Nat :=
  let (answers, set) := done
  if answers.contains offset then done
  else (answers.insert offset (set.contains offset != present),
    if present then set.insert offset else set.erase offset)

def setAll (present : Bool) (set : Std.ExtTreeSet Nat) (offsets : List Nat) :
    Std.ExtTreeMap Nat Bool × Std.ExtTreeSet Nat :=
  offsets.foldl (setNext present) (∅, set)

def addAssembly (b : Breakpoints) (contract : ContractHash) (offsets : List Nat) :
    Std.ExtTreeMap Nat Bool × Breakpoints :=
  let s := b.of contract
  let added := setAll true s.assembly offsets
  (added.1, b.insert contract { s with assembly := added.2 })

def removeAssembly (b : Breakpoints) (contract : ContractHash) (offsets : List Nat) :
    Std.ExtTreeMap Nat Bool × Breakpoints :=
  match b[contract]? with
  | none => (.ofList (offsets.map (·, false)), b)
  | some s =>
    let removed :=
      if offsets.isEmpty then (.ofList (s.assembly.toList.map (·, true)), ∅)
      else setAll false s.assembly offsets
    (removed.1, b.insert contract { s with assembly := removed.2 })

def addSource (b : Breakpoints) (contract : ContractHash) (locations : List SourceLocation) :
    Breakpoints :=
  let s := b.of contract
  b.insert contract { s with source := s.source.insertMany locations }

/-- Takes locations out of a set, one after the other. Each is answered by whether it has been taken
out by then. -/
def takeOut (removed source : Std.ExtTreeSet SourceLocation) : List SourceLocation →
    List (SourceLocation × Bool) × Std.ExtTreeSet SourceLocation
  | [] => ([], source)
  | l :: rest =>
    let removed := if source.contains l then removed.insert l else removed
    let later := takeOut removed (source.erase l) rest
    ((l, removed.contains l) :: later.1, later.2)

def removeSource (b : Breakpoints) (contract : ContractHash) (locations : List SourceLocation) :
    List (SourceLocation × Bool) × Breakpoints :=
  match b[contract]? with
  | none => (locations.map (·, false), b)
  | some s =>
    let removed :=
      if locations.isEmpty then (s.source.toList.map (·, true), ∅) else takeOut ∅ s.source locations
    (removed.1, b.insert contract { s with source := removed.2 })

end Breakpoints

end ScriptDebugger
