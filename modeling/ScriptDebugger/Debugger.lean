import ScriptDebugger.Config
import ScriptDebugger.Registry.Commands
import ScriptDebugger.Report
import ScriptDebugger.Session
import ScriptDebugger.Stepping

/-! The debugger: sessions that run invocations, and the tables of debug information that they
share. A command changes the debugger and answers, or is refused for a cause. A refused command
keeps what it did before it was refused, which is at most the making of the session it names. -/
namespace ScriptDebugger

structure Debugger where
  config : Config
  registry : Registry := {}
  table : SessionTable

namespace Debugger

abbrev Command := EStateM Error Debugger

def create (chain : Snapshot) (config : Config) : Debugger :=
  { config, table := { chain, defaults := { timestamp := config.defaultTimestamp } } }

def ofResult : Result α → Command α
  | .ok x => pure x
  | .error e => throw e

def setTable (table : SessionTable) : Command Unit := modify fun d => { d with table }

def setRegistry (registry : Registry) : Command Unit := modify fun d => { d with registry }

def putSession (s : Session) : Command Unit := modify fun d => { d with table := d.table.put s }

def existing (name : String) : Command Session := do
  ofResult ((← get).table.existing name)

def named (d : Debugger) (result : Result α) : Result α :=
  result.mapError (Error.withName fun hash => (d.table.chain.contract? hash).map Contract.name)

def report (d : Debugger) (e : Engine) (reason : StopReason) : DebugReport :=
  DebugReport.capture e.view d.registry e.ledger reason d.config.maxIteratorItems

def onRegistry (c : Registry.Command α) : Command α := do
  let d ← get
  match c.run d.registry with
  | .ok answer registry =>
    setRegistry registry
    return answer
  | .error cause registry =>
    setRegistry registry
    ofResult (d.named (.error cause))

def onTable (c : SessionTable.Command α) : Command α := do
  match c.run (← get).table with
  | .ok answer table =>
    setTable table
    return answer
  | .error cause table =>
    setTable table
    throw cause

def prepare (i : Invocation) : Command (Session × Engine) := do
  let d ← get
  let s := d.table.getOrCreate i.session
  putSession s
  let e ← ofResult (i.prepare s.snapshot s.overrides.timestamp d.config.maxGas)
  return (s, e)

def invoke (i : Invocation) : Command DebugReport := do
  let (s, e) ← prepare i
  let e := e.execute
  if e.state = .halted ∧ i.writeback then putSession (s.writeBack e.ledger)
  return (← get).report e .none

def drive (s : Session) (mode : StepMode) : Command DebugReport := do
  let d ← get
  let paused ← ofResult s.run
  let (reason, run) ← ofResult (Run.resume d.registry mode ⟨paused.engine, d.registry.coverage⟩)
  setRegistry { d.registry with coverage := run.coverage }
  putSession { s with suspended := some { paused with engine := run.engine } }.settle
  return (← get).report run.engine reason

def startDebug (i : Invocation) : Command DebugReport := do
  let (s, e) ← prepare i
  let s := s.beginDebug e i.writeback
  putSession s
  drive s .resume

def step (name : String) (mode : StepMode) : Command DebugReport := do
  drive (← existing name) mode

def inspect (name : String) (f : Registry → EngineView → Result α) : Command α := do
  let s ← existing name
  let paused ← ofResult s.run
  let d ← get
  ofResult (d.named (f d.registry paused.engine.view))

end Debugger

end ScriptDebugger
