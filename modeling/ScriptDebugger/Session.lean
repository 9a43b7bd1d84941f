import Std.Data.ExtTreeMap
import ScriptDebugger.Invocation

/-! Named sessions. Each has a state of its own, layered over the chain or over the session it was
copied from, and at most one run that is paused. A run that was started with writeback puts the
writes of its engine into the session once, when it has halted. -/
namespace ScriptDebugger

structure Overrides where
  /-- Milliseconds. -/
  timestamp : Option Nat := none
  deriving DecidableEq, Repr

structure SuspendedRun where
  engine : Engine
  writeback : Bool
  committed : Bool := false

structure Session where
  name : String
  snapshot : Snapshot
  overrides : Overrides
  suspended : Option SuspendedRun := none

namespace Session

def create (name : String) (base : Snapshot) (overrides : Overrides) : Session :=
  { name, snapshot := base.fork, overrides }

def writeBack (s : Session) (ledger : Snapshot) : Session :=
  { s with snapshot := ledger.commitInto s.snapshot }

def beginDebug (s : Session) (engine : Engine) (writeback : Bool) : Session :=
  { s with suspended := some { engine, writeback } }

def run (s : Session) : Result SuspendedRun :=
  match s.suspended with
  | some run => return run
  | none => throw (.noDebugInProgress s.name)

def settle (s : Session) : Session :=
  match s.suspended with
  | none => s
  | some run =>
    if run.writeback ∧ !run.committed ∧ run.engine.state = .halted then
      { s with suspended := some { run with committed := true } }.writeBack run.engine.ledger
    else s

end Session

def Named (sessions : Std.ExtTreeMap String Session) : Prop :=
  ∀ (name : String) (s : Session), sessions[name]? = some s → s.name = name

theorem namedEmpty : Named ∅ := by
  intro name s found
  simp at found

theorem namedInsert {sessions : Std.ExtTreeMap String Session} (named : Named sessions)
    {name : String} {s : Session} (own : s.name = name) : Named (sessions.insert name s) := by
  intro other t found
  rw [Std.ExtTreeMap.getElem?_insert] at found
  split at found
  · next same => cases found; exact own.trans (Std.LawfulEqOrd.eq_of_compare same)
  · exact named other t found

theorem namedErase {sessions : Std.ExtTreeMap String Session} (named : Named sessions)
    (name : String) : Named (sessions.erase name) := by
  intro other t found
  rw [Std.ExtTreeMap.getElem?_erase] at found
  split at found
  · contradiction
  · exact named other t found

structure SessionTable where
  chain : Snapshot
  defaults : Overrides := {}
  sessions : Std.ExtTreeMap String Session := ∅
  named : Named sessions := by exact namedEmpty

namespace SessionTable

def put (t : SessionTable) (s : Session) : SessionTable :=
  { t with sessions := t.sessions.insert s.name s, named := namedInsert t.named rfl }

def drop (t : SessionTable) (name : String) : SessionTable :=
  { t with sessions := t.sessions.erase name, named := namedErase t.named name }

def getOrCreate (t : SessionTable) (name : String) : Session :=
  t.sessions[name]?.getD (.create name t.chain t.defaults)

def existing (t : SessionTable) (name : String) : Result Session :=
  match t.sessions[name]? with
  | some s => return s
  | none => throw (.sessionNotFound name)

def renew (t : SessionTable) (names : List String) : SessionTable :=
  names.foldl (fun t name => t.put (.create name t.chain t.defaults)) t

def delete (t : SessionTable) (names : List String) : Std.ExtTreeMap String Bool × SessionTable :=
  names.foldl (fun (answers, t) name =>
    (answers.insert name (t.sessions.contains name), t.drop name)) (∅, t)

def names (t : SessionTable) : List String := t.sessions.keys

def rename (t : SessionTable) (source target : String) : Result SessionTable := do
  if t.sessions.contains target then throw (.sessionExists target)
  let s ← t.existing source
  return (t.drop source).put { s with name := target }

def copy (t : SessionTable) (source target : String) : Result SessionTable := do
  let s ← t.existing source
  if t.sessions.contains target then throw (.sessionExists target)
  return t.put (.create target s.snapshot s.overrides)

def setTimestamp (t : SessionTable) (name : String) (timestamp : Option Nat) : SessionTable :=
  t.put { t.getOrCreate name with overrides := { timestamp } }

def timestamps (t : SessionTable) (names : List String) :
    Std.ExtTreeMap String (Option Nat) × SessionTable :=
  names.foldl (fun (answers, t) name =>
    let s := t.getOrCreate name
    (answers.insert name s.overrides.timestamp, t.put s)) (∅, t)

-- The table changed in place. What a command has changed before it is refused stays changed.
abbrev Command := EStateM Error SessionTable

namespace Command

def rename (source target : String) : Command Unit := do
  if (← get).sessions.contains target then throw (.sessionExists target)
  let taken := (← get).sessions[source]?
  modify (·.drop source)
  match taken with
  | some s => modify (·.put { s with name := target })
  | none => throw (.sessionNotFound source)

def copy (source target : String) : Command Unit := do
  match (← get).sessions[source]? with
  | none => throw (.sessionNotFound source)
  | some s =>
    if (← get).sessions.contains target then throw (.sessionExists target)
    modify (·.put (.create target s.snapshot s.overrides))

end Command

end SessionTable

end ScriptDebugger
