import ScriptDebugger.Proofs.Debugger.Elsewhere
import ScriptDebugger.Proofs.Stepping.Course

/-! The life of a run, from the request that starts it to the one that drops it or starts another in
its place. All that time its engine is one that plain execution passes, and it is marked as committed
exactly when it has halted with writeback; every change of its session's ledger is one of two writes:
an invocation's, or its own as it halts. -/
namespace ScriptDebugger

def Request.idle : Request → Bool
  | invoke _ | step _ _ | settle _ => false
  | _ => true

namespace Debugger

def keeps (d : Debugger) (name : String) : Request → Option String
  | .newSessions names | .deleteSessions names => if name ∈ names then none else some name
  | .rename source target =>
    if source = name ∧ (d.session? target).isNone then some target else some name
  | .startDebug i => if i.session = name ∧ (d.engineFor i).isOk then none else some name
  | _ => some name

def follow (d : Debugger) (name : String) : List Request → Option String
  | [] => some name
  | request :: rest => do (d.handle request).2.follow (← d.keeps name request) rest

theorem keepsElsewhere {d : Debugger} {request : Request} {name : String}
    (elsewhere : name ∉ request.addresses) : d.keeps name request = some name := by
  cases request with
  | newSessions names => exact if_neg elsewhere
  | deleteSessions names => exact if_neg elsewhere
  | rename source target =>
    simp only [Request.addresses, List.mem_cons, not_or] at elsewhere
    exact if_neg fun moved => elsewhere.1 moved.1.symm
  | startDebug i =>
    simp only [Request.addresses, List.mem_singleton] at elsewhere
    exact if_neg fun begun => elsewhere begun.1.symm
  | _ => rfl

end Debugger

inductive Write where
  | invocation (e : Engine)
  | run (e : Engine)

namespace Write

def engine : Write → Engine
  | invocation e | run e => e

def onto (w : Write) (s : Snapshot) : Snapshot := w.engine.ledger.commitInto s

def run? : Write → Option Engine
  | invocation _ => none
  | run e => some e

end Write

namespace Debugger

-- What a request writes into the ledger of a session: an invocation's engine that halts with
-- writeback, or that of its run, if it was started with writeback and this request halts it.
def written (d : Debugger) (name next : String) : Request → List Write
  | .invoke i =>
    match d.engineFor i with
    | .ok e =>
      if i.session = name ∧ i.writeback ∧ e.execute.state = .halted then [.invocation e.execute]
      else []
    | .error _ => []
  | request =>
    match d.run? name, (d.handle request).2.run? next with
    | some before, some after =>
      if before.engine.state ≠ .halted ∧ after.engine.state = .halted ∧ after.writeback then
        [.run after.engine]
      else []
    | _, _ => []

def history (d : Debugger) (name : String) : List Request → List Write
  | [] => []
  | request :: rest =>
    match d.keeps name request with
    | none => []
    | some next => d.written name next request ++ (d.handle request).2.history next rest

def begun (d : Debugger) (i : Invocation) (e : Engine) : Debugger :=
  d.withSession ((d.workspace i).beginDebug e i.writeback)

def historyOf (d : Debugger) (i : Invocation) (e : Engine) (requests : List Request) : List Write :=
  (d.begun i e).history i.session (.step i.session .resume :: requests)

structure Life (d : Debugger) (name : String) (e : Engine) (writeback : Bool) (s : Session)
    (run : SuspendedRun) : Prop where
  here : d.session? name = some s
  paused : s.suspended = some run
  asked : run.writeback = writeback
  course : ∃ n, run.engine.awake = Engine.executeNext^[n] e.awake
  settled : run.committed = decide (run.engine.state = .halted ∧ writeback = true)

theorem Life.run? {d : Debugger} {name : String} {e : Engine} {writeback : Bool} {s : Session}
    {run : SuspendedRun} (life : Life d name e writeback s run) : d.run? name = some run := by
  rw [Debugger.run?, life.here]
  exact life.paused

theorem Life.rest {d other : Debugger} {name next : String} {e : Engine} {writeback : Bool}
    {s t : Session} {run : SuspendedRun} (life : Life d name e writeback s run)
    (here : other.session? next = some t) (same : t.suspended = s.suspended) :
    Life other next e writeback t run :=
  ⟨here,same.trans life.paused,life.asked,life.course,life.settled⟩

theorem writtenIdle {d : Debugger} {name next : String} {request : Request} {run : SuspendedRun}
    (before : d.run? name = some run) (after : (d.handle request).2.run? next = some run)
    (idle : ∀ i : Invocation, request = .invoke i → i.session ≠ name) :
    d.written name next request = [] := by
  unfold written
  split
  · next i =>
    have other := idle i rfl
    split
    · exact if_neg fun both => other both.1
    · rfl
  · rw [before, after]
    exact if_neg fun both => both.1 both.2.1

theorem drivenOfAlive (d : Debugger) {s : Session} (mode : StepMode) {paused : SuspendedRun}
    (held : s.suspended = some paused) (alive : paused.engine.state.isTerminal = false) :
    d.driven s mode =
      let out := Run.resumeAs d.registry mode ⟨paused.engine.awake,d.registry.coverage⟩
      (.ok (.report (d.report out.2.engine out.1)),
        (d.withCoverage out.2.coverage).withSession
          { s with suspended := some { paused with engine := out.2.engine } }.settle) := by
  simp only [driven, held]
  rw [@Run.resumeOfAlive d.registry mode ⟨paused.engine,d.registry.coverage⟩ alive]

theorem drivenOfTerminal (d : Debugger) {s : Session} (mode : StepMode) {paused : SuspendedRun}
    (held : s.suspended = some paused) (ended : paused.engine.state.isTerminal = true) :
    d.driven s mode =
      (.error (if paused.engine.state = .halted then .engineHalted else .engineFaulted),d) := by
  simp only [driven, held]
  rw [@Run.resumeOfTerminal d.registry mode ⟨paused.engine,d.registry.coverage⟩ ended]

end Debugger

namespace Session

theorem settleOpen (s : Session) {run : SuspendedRun} (fresh : run.committed = false)
    (engine : Engine) :
    { s with suspended := some { run with engine } }.settle =
      { s with
        suspended := some { run with
          engine, committed := decide (engine.state = .halted ∧ run.writeback = true) }
        snapshot := if engine.state = .halted ∧ run.writeback = true
          then engine.ledger.commitInto s.snapshot else s.snapshot } := by
  obtain ⟨old,writeback,committed⟩ := run
  cases fresh
  unfold settle
  dsimp only
  by_cases halted : engine.state = .halted
  · cases writeback with
    | true => simp [halted, writeBack]
    | false => simp [halted]
  · simp [halted]

theorem settleSettled {s : Session} {run : SuspendedRun} (held : s.suspended = some run)
    (settled : run.committed = decide (run.engine.state = .halted ∧ run.writeback = true)) :
    s.settle = s := by
  unfold settle
  rw [held]
  dsimp only
  apply if_neg
  rintro ⟨asked,fresh,halted⟩
  simp [settled, halted, asked] at fresh

end Session

namespace Debugger

theorem engineForLoaded {d : Debugger} {i : Invocation} {e : Engine}
    (ready : d.engineFor i = .ok e) :
    e = (Engine.create (d.workspace i).snapshot.fork (d.workspace i).overrides.timestamp i.signers
      d.config.maxGas i.surroundings).loadScript i.script := by
  unfold engineFor Invocation.prepare at ready
  cases resolved : Invocation.resolve (d.workspace i).snapshot i.contract i.method i.args with
  | error cause => rw [resolved] at ready; contradiction
  | ok target =>
    rw [resolved] at ready
    exact (Except.ok.inj ready).symm

theorem engineForFresh {d : Debugger} {i : Invocation} {e : Engine} (ready : d.engineFor i = .ok e) :
    e.state = .running ∧ e.ledger = (d.workspace i).snapshot.fork := by
  rw [engineForLoaded ready]
  exact ⟨rfl,rfl⟩

theorem sessionBegun (d : Debugger) (i : Invocation) (e : Engine) :
    (d.begun i e).session? i.session = some ((d.workspace i).beginDebug e i.writeback) :=
  sessionOwn d (workspaceName d i)

theorem startDebugBegun {d : Debugger} {i : Invocation} {e : Engine} (ready : d.engineFor i = .ok e) :
    d.handle (.startDebug i) = (d.begun i e).handle (.step i.session .resume) := by
  rw [handleStartDebug, handleStep, sessionBegun, ready]
  rfl

theorem lifeBegun {d : Debugger} {i : Invocation} {e : Engine} (ready : d.engineFor i = .ok e) :
    Life (d.begun i e) i.session e i.writeback ((d.workspace i).beginDebug e i.writeback)
      { engine := e, writeback := i.writeback } := by
  refine ⟨sessionBegun d i e,rfl,rfl,⟨0,rfl⟩,?_⟩
  simp [(engineForFresh ready).1]

theorem renameKeeps {d : Debugger} {name next source target : String} {s : Session}
    (here : d.session? name = some s) (kept : d.keeps name (.rename source target) = some next)
    (addressed : name ∈ [source,target]) :
    ∃ s' : Session, (d.handle (.rename source target)).2.session? next = some s' ∧
      s'.suspended = s.suspended ∧ s'.snapshot = s.snapshot := by
  rw [renameCases]
  change (if source = name ∧ (d.session? target).isNone then some target else some name) =
    some next at kept
  cases taken : d.session? target with
  | some other =>
    rw [if_neg (by simp [taken])] at kept
    cases kept
    exact ⟨s,here,rfl,rfl⟩
  | none =>
    have source : source = name := by
      rcases List.mem_cons.mp addressed with same | same
      · exact same.symm
      · rw [List.mem_singleton.mp same, taken] at here
        contradiction
    subst source
    rw [if_pos ⟨rfl,by rw [taken]; rfl⟩] at kept
    have moved := Option.some.inj kept
    subst moved
    rw [here]
    refine ⟨{ s with name := target },?_,rfl,rfl⟩
    exact (SessionTable.lookupPut (d.table.drop source) _ target).trans (if_pos rfl)

theorem idleKeeps {d : Debugger} {name next : String} {s : Session} {request : Request}
    (here : d.session? name = some s) (kept : d.keeps name request = some next)
    (idle : request.idle = true) :
    ∃ s' : Session, (d.handle request).2.session? next = some s' ∧
      s'.suspended = s.suspended ∧ s'.snapshot = s.snapshot := by
  by_cases elsewhere : name ∉ request.addresses
  · rw [keepsElsewhere elsewhere] at kept
    cases kept
    exact ⟨s,by rw [handleElsewhere d request elsewhere]; exact here,rfl,rfl⟩
  rw [not_not] at elsewhere
  have own := sessionName here
  cases request with
  | newSessions names | deleteSessions names =>
    change name ∈ names at elsewhere
    change (if name ∈ names then none else some name) = some next at kept
    rw [if_pos elsewhere] at kept
    contradiction
  | sessions | storage own contract start | inspect own look | registry request =>
    simp [Request.addresses] at elsewhere
  | timestamps names =>
    change name ∈ names at elsewhere
    cases kept
    have lookup := (d.table.lookupTimestamps names).2.2 name
    rw [if_pos elsewhere, SessionTable.getOrCreateOfFound here] at lookup
    exact ⟨s,lookup,rfl,rfl⟩
  | rename source target => exact renameKeeps here kept elsewhere
  | copy source target =>
    cases List.mem_singleton.mp elsewhere
    cases kept
    rw [copyCases, here]
    refine ⟨s,?_,rfl,rfl⟩
    cases d.session? source <;> exact here
  | setTimestamp named timestamp =>
    cases List.mem_singleton.mp elsewhere
    cases kept
    refine ⟨{ s with overrides := { timestamp } },?_,rfl,rfl⟩
    rw [handleSetTimestamp, SessionTable.setTimestamp, SessionTable.getOrCreateOfFound here]
    exact sessionOwn d own
  | startDebug i =>
    cases List.mem_singleton.mp elsewhere
    rw [handleStartDebug]
    change (if i.session = i.session ∧ (d.engineFor i).isOk then none else some i.session) =
      some next at kept
    cases ready : d.engineFor i with
    | ok e => simp [ready, Except.isOk, Except.toBool] at kept
    | error cause =>
      simp only [ready, Except.isOk, Except.toBool, Bool.false_eq_true, and_false, if_false] at kept
      cases kept
      rw [workspaceOfFound here]
      exact ⟨s,sessionOwn d own,rfl,rfl⟩
  | invoke i | step named mode | settle named => contradiction

theorem lifeDriven {d : Debugger} {name : String} {e : Engine} {writeback : Bool} {s : Session}
    {run : SuspendedRun} (life : Life d name e writeback s run) (mode : StepMode)
    (alive : run.engine.state.isTerminal = false) :
    ∃ (s' : Session) (run' : SuspendedRun) (reason : StopReason),
      Life (d.driven s mode).2 name e writeback s' run' ∧
      (d.driven s mode).1 = .ok (.report (d.report run'.engine reason)) ∧
      (run'.engine.state.isTerminal = true → reason = .none) ∧
      run'.engine = (Run.resumeAs d.registry mode ⟨run.engine.awake,d.registry.coverage⟩).2.engine ∧
      s'.snapshot = if run'.engine.state = .halted ∧ writeback = true
        then run'.engine.ledger.commitInto s.snapshot else s.snapshot := by
  obtain ⟨n,reached⟩ := Run.followsResumeAs d.registry mode ⟨run.engine.awake,d.registry.coverage⟩
  have ends := @Run.reasonOfEnd d.registry mode ⟨run.engine.awake,d.registry.coverage⟩
  obtain ⟨m,course⟩ := life.course
  have own := sessionName life.here
  have fresh : run.committed = false := by
    rw [life.settled]
    cases state : run.engine.state with
    | halted => simp [state, VmState.isTerminal] at alive
    | _ => simp
  rw [drivenOfAlive d mode life.paused alive]
  dsimp only
  generalize Run.resumeAs d.registry mode ⟨run.engine.awake,d.registry.coverage⟩ = out at *
  rw [Session.settleOpen s fresh]
  simp only [life.asked]
  refine ⟨_,_,_,⟨(sessionWithSession _ _ name).trans (if_pos own),rfl,rfl,⟨n + m,?_⟩,rfl⟩,rfl,ends,
    rfl,rfl⟩
  rw [reached, Engine.awakeAwake, course, ← Function.iterate_add_apply]

-- What a session and its run become under writes: they all go into the ledger in their order, the
-- run's own is among them only as it halts, and once it has ended it stays as it is.
structure Grows (writes : List Write) (writeback : Bool) (s : Session) (run : SuspendedRun)
    (s' : Session) (run' : SuspendedRun) : Prop where
  ledger : s'.snapshot = writes.foldl (fun t w => w.onto t) s.snapshot
  own : writes.filterMap Write.run? =
    if run.engine.state ≠ .halted ∧ run'.engine.state = .halted ∧ writeback = true
    then [run'.engine] else []
  final : run.engine.state.isTerminal = true → run' = run

theorem growsIdle {s s' : Session} (writeback : Bool) (run : SuspendedRun)
    (untouched : s'.snapshot = s.snapshot) : Grows [] writeback s run s' run :=
  ⟨untouched,(if_neg fun halts => halts.1 halts.2.1).symm,fun _ => rfl⟩

theorem growsThen {first second : List Write} {writeback : Bool} {s s' t : Session}
    {run run' last : SuspendedRun} (one : Grows first writeback s run s' run')
    (two : Grows second writeback s' run' t last) :
    Grows (first ++ second) writeback s run t last := by
  refine ⟨by rw [List.foldl_append, ← one.ledger, two.ledger],?_,?_⟩
  · rw [List.filterMap_append, one.own, two.own]
    by_cases halted : run'.engine.state = .halted
    · have same := two.final (by rw [halted]; rfl)
      subst same
      simp [halted]
    · have running : run.engine.state = .halted → run' = run :=
        fun finished => one.final (by rw [finished]; rfl)
      have open' : run.engine.state ≠ .halted := fun finished => halted (running finished ▸ finished)
      simp [halted, open']
  · intro ended
    have same := one.final ended
    subst same
    exact two.final ended

def Goes (d : Debugger) (request : Request) (name next : String) (e : Engine) (writeback : Bool)
    (s : Session) (run : SuspendedRun) : Prop :=
  ∃ (s' : Session) (run' : SuspendedRun), Life (d.handle request).2 next e writeback s' run' ∧
    Grows (d.written name next request) writeback s run s' run'

section Step

variable {d : Debugger} {name next : String} {e : Engine} {writeback : Bool} {s : Session}
  {run : SuspendedRun} {request : Request}

theorem goesIdle (life : Life d name e writeback s run) {s' : Session}
    (here : (d.handle request).2.session? next = some s') (same : s'.suspended = s.suspended)
    (untouched : s'.snapshot = s.snapshot)
    (other : ∀ i : Invocation, request = .invoke i → i.session ≠ name) :
    Goes d request name next e writeback s run := by
  have after := life.rest here same
  refine ⟨s',run,after,?_⟩
  rw [writtenIdle life.run? after.run? other]
  exact growsIdle writeback run untouched

theorem goesElsewhere (life : Life d name e writeback s run)
    (elsewhere : name ∉ request.addresses) : Goes d request name name e writeback s run := by
  refine goesIdle life ?_ rfl rfl ?_
  · rw [handleElsewhere d request elsewhere]
    exact life.here
  · rintro i rfl rfl
    exact elsewhere (List.mem_singleton.mpr rfl)

theorem goesInvoke {i : Invocation} (life : Life d i.session e writeback s run) :
    Goes d (.invoke i) i.session i.session e writeback s run := by
  have own := sessionName life.here
  have works := workspaceOfFound life.here
  unfold Goes
  rw [handleInvoke, works]
  cases ready : d.engineFor i with
  | error cause =>
    refine ⟨s,run,life.rest (sessionOwn d own) rfl,?_⟩
    simp only [written, ready]
    exact growsIdle writeback run rfl
  | ok other =>
    dsimp only
    by_cases writes : other.execute.state = .halted ∧ i.writeback
    · have written : d.written i.session i.session (.invoke i) = [.invocation other.execute] := by
        simp only [written, ready]
        exact if_pos ⟨trivial,writes.2,writes.1⟩
      rw [if_pos writes, written]
      exact ⟨s.writeBack other.execute.ledger,run,life.rest (sessionOwn d own) rfl,rfl,
        (if_neg fun halts => halts.1 halts.2.1).symm,fun _ => rfl⟩
    · have written : d.written i.session i.session (.invoke i) = [] := by
        simp only [written, ready]
        exact if_neg fun all => writes ⟨all.2.2,all.2.1⟩
      rw [if_neg writes, written]
      exact ⟨s,run,life.rest (sessionOwn d own) rfl,growsIdle writeback run rfl⟩

theorem goesStep (life : Life d name e writeback s run) (mode : StepMode) :
    Goes d (.step name mode) name name e writeback s run := by
  have handled : d.handle (.step name mode) = d.driven s mode := by rw [handleStep, life.here]
  cases ended : run.engine.state.isTerminal with
  | true =>
    refine goesIdle life ?_ rfl rfl (by rintro i ⟨⟩)
    rw [handled, drivenOfTerminal d mode life.paused ended]
    exact life.here
  | false =>
    obtain ⟨s',run',_,after,_,_,_,wrote⟩ := lifeDriven life mode ended
    rw [← handled] at after
    refine ⟨s',run',after,?_⟩
    have running : run.engine.state ≠ .halted := by
      intro halted
      simp [halted, VmState.isTerminal] at ended
    have final : run.engine.state.isTerminal = true → run' = run := by
      intro finished
      simp [ended] at finished
    simp only [written, life.run?, after.run?, after.asked]
    by_cases halts : run'.engine.state = .halted ∧ writeback = true
    · rw [if_pos ⟨running,halts⟩]
      exact ⟨wrote.trans (if_pos halts),(if_pos ⟨running,halts⟩).symm,final⟩
    · rw [if_neg fun all => halts all.2]
      exact ⟨wrote.trans (if_neg halts),(if_neg fun all => halts all.2).symm,final⟩

theorem goesSettle (life : Life d name e writeback s run) :
    Goes d (.settle name) name name e writeback s run := by
  have settled : s.settle = s :=
    Session.settleSettled life.paused (by rw [life.settled, life.asked])
  refine goesIdle life ?_ rfl rfl (by rintro i ⟨⟩)
  rw [handleSettle, life.here]
  dsimp only
  rw [settled]
  exact sessionOwn d (sessionName life.here)

theorem lifeStep (life : Life d name e writeback s run)
    (kept : d.keeps name request = some next) : Goes d request name next e writeback s run := by
  by_cases elsewhere : name ∉ request.addresses
  · rw [keepsElsewhere elsewhere] at kept
    cases kept
    exact goesElsewhere life elsewhere
  rw [not_not] at elsewhere
  by_cases idle : request.idle = true
  · obtain ⟨s',here,same,untouched⟩ := idleKeeps life.here kept idle
    refine goesIdle life here same untouched ?_
    rintro i rfl
    contradiction
  cases request with
  | invoke i =>
    cases kept
    cases List.mem_singleton.mp elsewhere
    exact goesInvoke life
  | step own mode =>
    cases kept
    cases List.mem_singleton.mp elsewhere
    exact goesStep life mode
  | settle own =>
    cases kept
    cases List.mem_singleton.mp elsewhere
    exact goesSettle life
  | _ => exact absurd rfl idle

end Step

theorem lifeFollow {d : Debugger} {name last : String} {e : Engine} {writeback : Bool} {s : Session}
    {run : SuspendedRun} {requests : List Request} (life : Life d name e writeback s run)
    (kept : d.follow name requests = some last) :
    ∃ (s' : Session) (run' : SuspendedRun), Life (d.serve requests).2 last e writeback s' run' ∧
      Grows (d.history name requests) writeback s run s' run' := by
  induction requests generalizing d name s run with
  | nil =>
    cases Option.some.inj kept
    exact ⟨s,run,life,growsIdle writeback run rfl⟩
  | cons request rest ih =>
    obtain ⟨next,here,later⟩ := Option.bind_eq_some_iff.mp kept
    obtain ⟨s',run',after,one⟩ := lifeStep life here
    obtain ⟨t,last',final,two⟩ := ih after later
    refine ⟨t,last',final,?_⟩
    simp only [history, here]
    exact growsThen one two

theorem lifeStarted {d : Debugger} {i : Invocation} {e : Engine} (ready : d.engineFor i = .ok e)
    {requests : List Request} {name : String}
    (kept : (d.handle (.startDebug i)).2.follow i.session requests = some name) :
    ∃ (s : Session) (run : SuspendedRun) (n : Nat),
      Life (d.serve (.startDebug i :: requests)).2 name e i.writeback s run ∧
      run.engine.awake = Engine.executeNext^[n] e ∧
      Grows (d.historyOf i e requests) i.writeback ((d.workspace i).beginDebug e i.writeback)
        { engine := e, writeback := i.writeback } s run := by
  have asleep : e.awake = e := Engine.awakeOfRunning (engineForFresh ready).1
  have started := startDebugBegun ready
  have served : d.serve (.startDebug i :: requests) =
      (d.begun i e).serve (.step i.session .resume :: requests) := by
    simp only [serve, started]
  rw [started] at kept
  have kept : (d.begun i e).follow i.session (.step i.session .resume :: requests) = some name :=
    kept
  obtain ⟨s,run,life,grows⟩ := lifeFollow (lifeBegun ready) kept
  obtain ⟨n,course⟩ := life.course
  rw [asleep] at course
  rw [served]
  exact ⟨s,run,n,life,course,grows⟩

end Debugger

end ScriptDebugger
