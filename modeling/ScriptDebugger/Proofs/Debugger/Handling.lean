import ScriptDebugger.Proofs.Debugger.Table
import ScriptDebugger.Proofs.Registry.Commands

/-! The outcome of each request, one equation a request: the answer or the refusal, and the debugger
it leaves. A request that is refused leaves at most the making of the session it names. -/
namespace ScriptDebugger

theorem Session.settleName (s : Session) : s.settle.name = s.name := by
  unfold settle
  split
  · rfl
  · split <;> rfl

namespace Debugger

def session? (d : Debugger) (name : String) : Option Session := d.table.sessions[name]?

def run? (d : Debugger) (name : String) : Option SuspendedRun :=
  (d.session? name).bind Session.suspended

def workspace (d : Debugger) (i : Invocation) : Session := d.table.getOrCreate i.session

def engineFor (d : Debugger) (i : Invocation) : Result Engine :=
  i.prepare (d.workspace i).snapshot (d.workspace i).overrides.timestamp d.config.maxGas

def withSession (d : Debugger) (s : Session) : Debugger := { d with table := d.table.put s }

def withCoverage (d : Debugger) (coverage : Coverage) : Debugger :=
  { d with registry := { d.registry with coverage } }

theorem sessionWithSession (d : Debugger) (s : Session) (name : String) :
    (d.withSession s).session? name = if s.name = name then some s else d.session? name :=
  SessionTable.lookupPut d.table s name

theorem sessionOwn (d : Debugger) {s : Session} {name : String} (own : s.name = name) :
    (d.withSession s).session? name = some s := by
  rw [sessionWithSession, if_pos own]

theorem sessionOther (d : Debugger) {s : Session} {name : String} (other : s.name ≠ name) :
    (d.withSession s).session? name = d.session? name := by
  rw [sessionWithSession, if_neg other]

theorem sessionName {d : Debugger} {name : String} {s : Session} (here : d.session? name = some s) :
    s.name = name := d.table.named name s here

theorem workspaceName (d : Debugger) (i : Invocation) : (d.workspace i).name = i.session :=
  SessionTable.getOrCreateName d.table i.session

theorem workspaceOfFound {d : Debugger} {i : Invocation} {s : Session}
    (here : d.session? i.session = some s) : d.workspace i = s :=
  SessionTable.getOrCreateOfFound here

theorem withSessionTwice (d : Debugger) {s t : Session} (same : s.name = t.name) :
    (d.withSession s).withSession t = d.withSession t := by
  simp only [withSession, SessionTable.putPut d.table same]

def driven (d : Debugger) (s : Session) (mode : StepMode) : Result Answer × Debugger :=
  match s.suspended with
  | none => (.error (.noDebugInProgress s.name),d)
  | some paused =>
    match Run.resume d.registry mode ⟨paused.engine,d.registry.coverage⟩ with
    | .error cause => (.error cause,d)
    | .ok (reason,run) =>
      (.ok (.report (d.report run.engine reason)),
        (d.withCoverage run.coverage).withSession
          { s with suspended := some { paused with engine := run.engine } }.settle)

theorem runPutSession (d : Debugger) (s : Session) :
    (putSession s).run d = .ok () (d.withSession s) := rfl

theorem runOfResult (d : Debugger) (result : Result α) :
    (ofResult result).run d = match result with
      | .ok x => .ok x d
      | .error cause => .error cause d := by
  cases result <;> rfl

theorem runExisting (d : Debugger) (name : String) :
    (existing name).run d = match d.session? name with
      | some s => .ok s d
      | none => .error (.sessionNotFound name) d := by
  simp only [existing, EStateM.run_bind, EStateM.run_get, runOfResult]
  unfold SessionTable.existing session?
  cases d.table.sessions[name]? <;> rfl

theorem runPrepare (d : Debugger) (i : Invocation) :
    (prepare i).run d = match d.engineFor i with
      | .ok e => .ok (d.workspace i,e) (d.withSession (d.workspace i))
      | .error cause => .error cause (d.withSession (d.workspace i)) := by
  have ready : i.prepare (d.table.getOrCreate i.session).snapshot
      (d.table.getOrCreate i.session).overrides.timestamp d.config.maxGas = d.engineFor i := rfl
  simp only [prepare, EStateM.run_bind, EStateM.run_get, runPutSession, runOfResult, ready]
  cases d.engineFor i <;> rfl

theorem runDrive (d : Debugger) (s : Session) (mode : StepMode) :
    (drive s mode).run d = match s.suspended with
      | none => .error (.noDebugInProgress s.name) d
      | some paused =>
        match Run.resume d.registry mode ⟨paused.engine,d.registry.coverage⟩ with
        | .error cause => .error cause d
        | .ok (reason,run) => .ok (d.report run.engine reason)
          ((d.withCoverage run.coverage).withSession
            { s with suspended := some { paused with engine := run.engine } }.settle) := by
  simp only [drive, EStateM.run_bind, EStateM.run_get, runOfResult, Session.run]
  cases s.suspended with
  | none => rfl
  | some paused =>
    dsimp only [pure, Except.pure]
    cases Run.resume d.registry mode ⟨paused.engine,d.registry.coverage⟩ with
    | error cause => rfl
    | ok driven => rfl

theorem handleInvoke (d : Debugger) (i : Invocation) :
    d.handle (.invoke i) =
      match d.engineFor i with
      | .error cause => (.error cause,d.withSession (d.workspace i))
      | .ok e =>
        (.ok (.report (d.report e.execute .none)),
          d.withSession (if e.execute.state = .halted ∧ i.writeback
            then (d.workspace i).writeBack e.execute.ledger else d.workspace i)) := by
  simp only [handle, command, invoke, EStateM.run_bind, runPrepare]
  cases d.engineFor i with
  | error cause => rfl
  | ok e =>
    dsimp only
    by_cases commits : e.execute.state = .halted ∧ i.writeback
    · have twice : (d.withSession (d.workspace i)).withSession
          ((d.workspace i).writeBack e.execute.ledger) =
            d.withSession ((d.workspace i).writeBack e.execute.ledger) := withSessionTwice d rfl
      simp only [if_pos commits]
      rw [← twice]
      rfl
    · simp only [if_neg commits]
      rfl

theorem handleStep (d : Debugger) (name : String) (mode : StepMode) :
    d.handle (.step name mode) =
      match d.session? name with
      | none => (.error (.sessionNotFound name),d)
      | some s => d.driven s mode := by
  simp only [handle, command, step, EStateM.run_bind, runExisting]
  cases d.session? name with
  | none => rfl
  | some s =>
    simp only [runDrive, driven]
    cases s.suspended with
    | none => rfl
    | some paused =>
      dsimp only
      cases Run.resume d.registry mode ⟨paused.engine,d.registry.coverage⟩ <;> rfl

theorem handleStartDebug (d : Debugger) (i : Invocation) :
    d.handle (.startDebug i) =
      match d.engineFor i with
      | .error cause => (.error cause,d.withSession (d.workspace i))
      | .ok e =>
        let begun := (d.workspace i).beginDebug e i.writeback
        (d.withSession begun).driven begun .resume := by
  simp only [handle, command, startDebug, EStateM.run_bind, runPrepare]
  cases d.engineFor i with
  | error cause => rfl
  | ok e =>
    have twice : (d.withSession (d.workspace i)).withSession
        ((d.workspace i).beginDebug e i.writeback) =
          d.withSession ((d.workspace i).beginDebug e i.writeback) := withSessionTwice d rfl
    simp only [runPutSession, twice, runDrive, driven]
    cases ((d.workspace i).beginDebug e i.writeback).suspended with
    | none => rfl
    | some paused =>
      dsimp only
      cases Run.resume _ .resume _ <;> rfl

theorem runOnTable (d : Debugger) {c : SessionTable.Command Unit} {outcome : Result SessionTable} :
    c.CarriesOut d.table outcome →
      (onTable do c; return Answer.done).run d = match outcome with
        | .ok table => .ok .done { d with table }
        | .error cause => .error cause d := by
  intro carried
  unfold SessionTable.Command.CarriesOut at carried
  simp only [onTable, EStateM.run_bind, EStateM.run_get, carried]
  cases outcome <;> rfl

theorem runOnRegistry (d : Debugger) {c : Registry.Command α} {outcome : Result (α × Registry)}
    (carried : c.CarriesOut d.registry outcome) :
    (onRegistry c).run d = match d.named outcome with
      | .ok (answer,registry) => .ok answer { d with registry }
      | .error cause => .error cause d := by
  unfold Registry.Command.CarriesOut at carried
  simp only [onRegistry, EStateM.run_bind, EStateM.run_get, carried]
  cases outcome <;> rfl

theorem handleNewSessions (d : Debugger) (names : List String) :
    d.handle (.newSessions names) = (.ok (.names names),{ d with table := d.table.renew names }) :=
  rfl

theorem handleDeleteSessions (d : Debugger) (names : List String) :
    d.handle (.deleteSessions names) =
      (.ok (.existed (d.table.delete names).1),{ d with table := (d.table.delete names).2 }) := rfl

theorem handleRename (d : Debugger) (source target : String) :
    d.handle (.rename source target) =
      match d.table.rename source target with
      | .error cause => (.error cause,d)
      | .ok table => (.ok .done,{ d with table }) := by
  simp only [handle, command, runOnTable d (d.table.renameInPlace source target)]
  cases d.table.rename source target <;> rfl

theorem handleCopy (d : Debugger) (source target : String) :
    d.handle (.copy source target) =
      match d.table.copy source target with
      | .error cause => (.error cause,d)
      | .ok table => (.ok .done,{ d with table }) := by
  simp only [handle, command, runOnTable d (d.table.copyInPlace source target)]
  cases d.table.copy source target <;> rfl

theorem renameCases (d : Debugger) (source target : String) :
    d.handle (.rename source target) =
      match d.session? target, d.session? source with
      | some _, _ => (.error (.sessionExists target),d)
      | none, none => (.error (.sessionNotFound source),d)
      | none, some s =>
        (.ok .done,{ d with table := (d.table.drop source).put { s with name := target } }) := by
  rw [handleRename, SessionTable.renameCases, ← session?, ← session?]
  cases d.session? target with
  | some taken => rfl
  | none => cases d.session? source <;> rfl

theorem copyCases (d : Debugger) (source target : String) :
    d.handle (.copy source target) =
      match d.session? source, d.session? target with
      | none, _ => (.error (.sessionNotFound source),d)
      | some _, some _ => (.error (.sessionExists target),d)
      | some s, none => (.ok .done,d.withSession (.create target s.snapshot s.overrides)) := by
  rw [handleCopy, SessionTable.copyCases, ← session?, ← session?]
  cases d.session? source with
  | none => rfl
  | some s => cases d.session? target <;> rfl

theorem handleSetTimestamp (d : Debugger) (name : String) (timestamp : Option Nat) :
    d.handle (.setTimestamp name timestamp) =
      (.ok .done,{ d with table := d.table.setTimestamp name timestamp }) := rfl

theorem handleSettle (d : Debugger) (name : String) :
    d.handle (.settle name) =
      match d.session? name with
      | none => (.error (.sessionNotFound name),d)
      | some s => (.ok .done,d.withSession s.settle) := by
  simp only [handle, command, EStateM.run_bind, runExisting]
  cases d.session? name <;> rfl

theorem handleStorage (d : Debugger) (name : String) (contract : ContractHash) (start : Bytes) :
    d.handle (.storage name contract start) =
      match d.session? name with
      | none => (.error (.sessionNotFound name),d)
      | some s => (.ok (.entries (s.snapshot.find contract start)),d) := by
  simp only [handle, command, EStateM.run_bind, runExisting]
  cases d.session? name <;> rfl

theorem handleInspect (d : Debugger) (name : String) (look : Inspection) :
    d.handle (.inspect name look) =
      match d.session? name with
      | none => (.error (.sessionNotFound name),d)
      | some s =>
        match s.suspended with
        | none => (.error (.noDebugInProgress s.name),d)
        | some paused => (d.named (look.look d.registry paused.engine.view),d) := by
  simp only [handle, command, inspect, EStateM.run_bind, runExisting]
  cases d.session? name with
  | none => rfl
  | some s =>
    simp only [runOfResult, Session.run]
    cases s.suspended with
    | none => rfl
    | some paused =>
      dsimp only [pure, Except.pure, EStateM.run_get]
      cases d.named (look.look d.registry paused.engine.view) <;> rfl

theorem handleRegistry (d : Debugger) (request : RegistryRequest) :
    d.handle (.registry request) =
      match d.named (request.perform d.registry) with
      | .error cause => (.error cause,d)
      | .ok (answer,registry) => (.ok answer,{ d with registry }) := by
  simp only [handle, command, runOnRegistry d (request.carriedOut d.registry)]
  cases d.named (request.perform d.registry) <;> rfl

end Debugger

end ScriptDebugger
