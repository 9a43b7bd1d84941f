import ScriptDebugger.Proofs.Debugger.Life
import ScriptDebugger.Proofs.Stepping.Continue

/-! Debugging an invocation is invoking it in parts. Whatever commands follow the start, the engine is
one that plain execution passes; where it has ended it is the engine that an invocation leaves, with
the same report and the same state of the session. -/
namespace ScriptDebugger.Debugger

def reports (answers : List (Result Answer)) : List DebugReport :=
  answers.filterMap fun answer => match answer with
    | .ok (.report report) => some report
    | _ => none

theorem reportsCons (answer : Result Answer) (answers : List (Result Answer)) :
    reports (answer :: answers) = reports [answer] ++ reports answers :=
  List.filterMap_append (l := [answer])

theorem reportDriven (d : Debugger) (s : Session) (mode : StepMode) :
    (d.driven s mode).2.report = d.report := by
  unfold driven
  split
  · rfl
  · split <;> rfl

theorem stepHeld {d : Debugger} {name : String} {s : Session} (here : d.session? name = some s)
    (mode : StepMode) : d.handle (.step name mode) = d.driven s mode := by
  rw [handleStep, here]

-- What steps do to a run: nothing where it has ended, and else the last report they give is that of
-- the engine they end with, whose writes they put into the session.
theorem stepsReach {d : Debugger} {name : String} {e : Engine} {writeback : Bool} {s : Session}
    {run : SuspendedRun} (life : Life d name e writeback s run) (modes : List StepMode) :
    ∃ (s' : Session) (run' : SuspendedRun),
      Life (d.serve (modes.map (.step name))).2 name e writeback s' run' ∧
      (run.engine.state.isTerminal = true → run' = run ∧ s' = s ∧
        reports (d.serve (modes.map (.step name))).1 = []) ∧
      (run.engine.state.isTerminal = false →
        (run'.engine.state.isTerminal = true →
          (reports (d.serve (modes.map (.step name))).1).getLast? =
            some (d.report run'.engine .none)) ∧
        s'.snapshot = if run'.engine.state = .halted ∧ writeback = true
          then run'.engine.ledger.commitInto s.snapshot else s.snapshot) := by
  induction modes generalizing d s run with
  | nil =>
    refine ⟨s,run,life,fun _ => ⟨rfl,rfl,rfl⟩,fun alive => ⟨?_,?_⟩⟩
    · intro ended
      simp [ended] at alive
    · rw [if_neg]
      rintro ⟨halted,_⟩
      simp [halted, VmState.isTerminal] at alive
  | cons mode modes ih =>
    have handled := stepHeld life.here mode
    have served : d.serve ((mode :: modes).map (.step name)) =
        ((d.driven s mode).1 :: ((d.driven s mode).2.serve (modes.map (.step name))).1,
          ((d.driven s mode).2.serve (modes.map (.step name))).2) := by
      rw [← handled]
      rfl
    rw [served]
    cases ended : run.engine.state.isTerminal with
    | true =>
      rw [drivenOfTerminal d mode life.paused ended]
      obtain ⟨s',run',after,kept,_⟩ := ih life
      obtain ⟨sameRun,sameSession,silent⟩ := kept ended
      refine ⟨s',run',after,fun _ => ⟨sameRun,sameSession,silent⟩,?_⟩
      intro alive
      contradiction
    | false =>
      obtain ⟨next,run₁,reason,first,answer,ends,_,wrote⟩ := lifeDriven life mode ended
      obtain ⟨s',run',after,kept,moved⟩ := ih first
      refine ⟨s',run',after,fun finished => ?_,fun _ => ?_⟩
      · contradiction
      rw [reportDriven] at moved
      cases ended₁ : run₁.engine.state.isTerminal with
      | true =>
        obtain ⟨sameRun,sameSession,silent⟩ := kept ended₁
        subst sameRun sameSession
        refine ⟨fun _ => ?_,wrote⟩
        rw [reportsCons, silent, answer, ends ended₁]
        rfl
      | false =>
        obtain ⟨report,snapshot⟩ := moved ended₁
        have open₁ : ¬ (run₁.engine.state = .halted ∧ writeback = true) := by
          rintro ⟨halted,_⟩
          simp [halted, VmState.isTerminal] at ended₁
        rw [if_neg open₁] at wrote
        refine ⟨fun finished => ?_,by rw [snapshot, wrote]⟩
        rw [reportsCons, List.getLast?_append, report finished]
        rfl

theorem startReachesEnd {d : Debugger} {e : Engine}
    (free : ∀ contract, (d.registry.breakpoints.of contract).isEmpty = true)
    (running : e.state = .running) :
    (Run.resumeAs d.registry .resume ⟨e.awake,d.registry.coverage⟩).2.engine.state.isTerminal =
      true := by
  have clear : ∀ e : Engine, e.breakpoint? d.registry = none := by
    intro e
    unfold Engine.breakpoint?
    split
    · rfl
    · next f rest shape =>
      have empty := free f.contract
      simp only [BreakpointSet.isEmpty, Bool.and_eq_true, Std.ExtTreeSet.isEmpty_iff] at empty
      simp only [Breakpoints.hasAssembly, Breakpoints.hasSource, empty.1, empty.2,
        Std.ExtTreeSet.contains_empty, Bool.false_eq_true, if_false]
      split <;> rfl
  have none : ∀ m, Run.seen d.registry m = none := by
    intro m
    simp only [Run.seen, Engine.stop?, clear, Option.map_none, ite_self]
  have awake : e.awake.state = .running := Engine.awakeRunning (by rw [running]; rfl)
  have first := @Run.seenContinue d.registry ⟨e.awake,d.registry.coverage⟩ awake
  rw [List.filterMap_eq_nil_iff.mpr fun m _ => none m] at first
  by_contra alive
  change ¬ (Run.runUntil d.registry .breakpoint ⟨e.awake,d.registry.coverage⟩).2.engine.state.isTerminal =
    true at alive
  dsimp only at first
  rw [if_neg alive] at first
  contradiction

theorem invokeSnapshot {d : Debugger} {i : Invocation} {e : Engine} (ready : d.engineFor i = .ok e) :
    ((d.handle (.invoke i)).2.session? i.session).map Session.snapshot =
      some (if e.execute.state = .halted ∧ i.writeback = true
        then e.execute.ledger.commitInto (d.workspace i).snapshot
        else (d.workspace i).snapshot) := by
  have own := workspaceName d i
  rw [handleInvoke, ready]
  dsimp only
  rw [sessionWithSession]
  split
  · rw [if_pos (show ((d.workspace i).writeBack e.execute.ledger).name = i.session from own)]
    rfl
  · rfl

-- Refused or not, an invocation that is debugged goes the way of one that is invoked.
theorem debuggingIsInvoking (d : Debugger) (i : Invocation) (modes : List StepMode) :
    match d.engineFor i with
    | .error cause =>
      d.handle (.startDebug i) = d.handle (.invoke i) ∧ (d.handle (.invoke i)).1 = .error cause
    | .ok e =>
      (d.handle (.invoke i)).1 = .ok (.report (d.report e.execute .none)) ∧
      (∃ (s : Session) (run : SuspendedRun) (n : Nat),
        let served := d.serve (.startDebug i :: modes.map (.step i.session))
        served.2.session? i.session = some s ∧ s.suspended = some run ∧
        run.engine.awake = Engine.executeNext^[n] e ∧
        (run.engine.state.isTerminal = true →
          run.engine = e.execute ∧
          (reports served.1).getLast? = some (d.report e.execute .none) ∧
          ((d.handle (.invoke i)).2.session? i.session).map Session.snapshot = some s.snapshot)) ∧
      ((∀ contract, (d.registry.breakpoints.of contract).isEmpty = true) →
        (d.handle (.startDebug i)).1 = (d.handle (.invoke i)).1 ∧
        ((d.handle (.startDebug i)).2.run? i.session).map SuspendedRun.engine = some e.execute) := by
  cases ready : d.engineFor i with
  | error cause =>
    rw [handleStartDebug, handleInvoke, ready]
    exact ⟨rfl,rfl⟩
  | ok e =>
    have invoked := handleInvoke d i
    rw [ready] at invoked
    have fresh := engineForFresh ready
    have asleep : e.awake = e := Engine.awakeOfRunning fresh.1
    have alive : e.state.isTerminal = false := by rw [fresh.1]; rfl
    have started := startDebugBegun ready
    have life := lifeBegun ready
    have executed : ∀ {run : SuspendedRun} {n : Nat}, run.engine.awake = Engine.executeNext^[n] e →
        run.engine.state.isTerminal = true → run.engine = e.execute := by
      intro run n course ended
      rw [Engine.awakeOfTerminal ended] at course
      have last := Engine.executeIsEnd (e := e) (n := n) (by rw [asleep, ← course]; exact ended)
      rw [course, ← last, asleep]
    refine ⟨by rw [invoked],?_,?_⟩
    · obtain ⟨s,run,after,_,moved⟩ := stepsReach life (.resume :: modes)
      obtain ⟨report,snapshot⟩ := moved alive
      obtain ⟨n,course⟩ := after.course
      rw [asleep] at course
      have served : d.serve (.startDebug i :: modes.map (.step i.session)) =
          (d.begun i e).serve ((.resume :: modes).map (.step i.session)) := by
        simp only [serve, List.map_cons, started]
      refine ⟨s,run,n,?_⟩
      rw [served]
      refine ⟨after.here,after.paused,course,fun ended => ?_⟩
      have same := executed course ended
      rw [same] at report snapshot
      refine ⟨same,report ((executed course ended) ▸ ended),?_⟩
      rw [snapshot, invokeSnapshot ready]
      rfl
    · intro free
      have ended := startReachesEnd free fresh.1
      obtain ⟨s,run,reason,after,answer,ends,engine,_⟩ := lifeDriven life .resume alive
      obtain ⟨n,course⟩ := after.course
      rw [asleep] at course
      have finished : run.engine.state.isTerminal = true := by rw [engine]; exact ended
      have same := executed course finished
      rw [started, stepHeld life.here, after.run?, answer, ends finished, invoked, same]
      exact ⟨rfl,congrArg some same⟩

end ScriptDebugger.Debugger
