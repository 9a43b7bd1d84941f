import ScriptDebugger.Proofs.Stepping.Continue

/-! Where a step over a source line ends. Plain execution is left at the first engine that has ended,
or that an instruction arrives at and a reason holds for: a breakpoint anywhere, or a line that starts
there in a frame of the depth and the contract the step began in. -/
namespace ScriptDebugger

namespace Engine

def lineHere? (r : Registry) (e : Engine) : Option SourceLine :=
  e.frames.head?.bind fun f => (r.profile? f.contract).bind fun p => p.map.lineStart? f.position

def overReason? (r : Registry) (start : Nat × Option ContractHash) (e : Engine) :
    Option StopReason :=
  (e.breakpoint? r).or
    (if (e.lineHere? r).isSome ∧ Run.place e = start then some .sourceLine else none)

-- The instruction this engine stands at ends the step. A frame that runs past the end of its script
-- has no instruction there, and nothing is looked for after it.
def OverEnds (r : Registry) (start : Nat × Option ContractHash) (e : Engine) : Prop :=
  e.executeNext.state.isTerminal = true ∨
    (e.next?.isSome = true ∧ (e.executeNext.overReason? r start).isSome = true)

def overAnswer (r : Registry) (start : Nat × Option ContractHash) (e : Engine) : StopReason :=
  if e.state.isTerminal then .none else (e.overReason? r start).getD .none

theorem overReasonAwake (r : Registry) (start : Nat × Option ContractHash) (e : Engine) :
    e.awake.overReason? r start = e.overReason? r start := by
  unfold awake
  split <;> rfl

theorem overAnswerAwake (r : Registry) (start : Nat × Option ContractHash) (e : Engine) :
    e.awake.overAnswer r start = e.overAnswer r start := by
  rw [overAnswer, awakeTerminal, overReasonAwake, overAnswer]

theorem overEndsAwake (r : Registry) (start : Nat × Option ContractHash) (e : Engine) :
    e.awake.OverEnds r start ↔ e.OverEnds r start := by
  rw [OverEnds, ← awakeExecuteNext, awakeTerminal, nextAwake, overReasonAwake, OverEnds]

theorem placeAwake (e : Engine) : Run.place e.awake = Run.place e := by
  unfold awake
  split <;> rfl

theorem breakpointKind {r : Registry} {e : Engine} {reason : StopReason}
    (found : e.breakpoint? r = some reason) :
    reason = .assemblyBreakpoint ∨ reason = .sourceBreakpoint := by
  unfold breakpoint? at found
  split at found
  · contradiction
  · split at found
    · exact .inl (Option.some.inj found).symm
    · split at found
      · contradiction
      · split at found
        · exact .inr (Option.some.inj found).symm
        · contradiction

theorem overAnswerLine {r : Registry} {start : Nat × Option ContractHash} {e : Engine}
    (line : e.overAnswer r start = .sourceLine) : Run.place e = start := by
  unfold overAnswer overReason? at line
  split at line
  · exact absurd line (by decide)
  · cases found : e.breakpoint? r with
    | some reason =>
      rw [found, Option.some_or, Option.getD_some] at line
      rcases breakpointKind found with rfl | rfl <;> exact absurd line (by decide)
    | none =>
      rw [found, Option.none_or] at line
      split at line
      · next both => exact both.2
      · contradiction

end Engine

namespace Run

theorem reasonHereAsked {required : StopReason}
    (assembly : required.contains .assemblyBreakpoint = true)
    (source : required.contains .sourceBreakpoint = true) (r : Registry) (e : Engine) :
    reasonHere r required e =
      (e.breakpoint? r).or
        (if required.contains .sourceLine && (e.lineHere? r).isSome then some .sourceLine
          else none) := by
  cases shape : e.frames with
  | nil => simp [reasonHere, Engine.breakpoint?, Engine.lineHere?, shape]
  | cons f rest =>
    simp only [reasonHere, Engine.breakpoint?, Engine.lineHere?, shape, List.head?_cons,
      Option.bind_eq_bind, Option.bind_some, assembly, source, Bool.true_and]
    split
    · rfl
    · cases line : (r.profile? f.contract).bind fun p => p.map.lineStart? f.position with
      | none => simp
      | some line =>
        simp only [Option.map_some, Option.getD_some]
        split <;> rfl

theorem reasonHereOver (r : Registry) (e : Engine) :
    reasonHere r StepMode.stepOverSource.required e =
      (e.breakpoint? r).or (if (e.lineHere? r).isSome then some .sourceLine else none) := by
  have anyLine : StepMode.stepOverSource.required.contains .sourceLine = true := by decide
  rw [reasonHereAsked (by decide) (by decide), anyLine, Bool.true_and]

theorem overFiltered (r : Registry) (start : Nat × Option ContractHash) (e : Engine) :
    e.overReason? r start =
      (reasonHere r StepMode.stepOverSource.required e).filter (stopsStepOver start · e) := by
  have line : stopsStepOver start .sourceLine e = decide (place e = start) := by
    simp [stopsStepOver, show StopReason.sourceLine.intersects .breakpoint = false by decide,
      show StopReason.sourceLine.contains .sourceLine = true by decide]
  rw [reasonHereOver, Engine.overReason?]
  cases found : e.breakpoint? r with
  | some reason =>
    have stops : stopsStepOver start reason e = true := by
      rcases Engine.breakpointKind found with rfl | rfl <;>
        simp [stopsStepOver,
          show StopReason.assemblyBreakpoint.intersects .breakpoint = true by decide,
          show StopReason.sourceBreakpoint.intersects .breakpoint = true by decide]
    simp [Option.filter, stops]
  | none =>
    cases (e.lineHere? r).isSome with
    | false => rfl
    | true => simp [Option.filter, line]

inductive OverTurn (r : Registry) (run : Run) : StopReason × Run → Prop where
  | ended (finished : run.step.engine.state.isTerminal = true) : OverTurn r run (.none,run.step)
  | passed (runs : run.step.engine.state = .running)
      (free : run.engine.next?.isSome = true →
        reasonHere r StepMode.stepOverSource.required run.step.engine = Option.none) :
      OverTurn r run (.none,run.step)
  | arrived (runs : run.step.engine.state = .running) (here : run.engine.next?.isSome = true)
      (reason : StopReason)
      (holds : reasonHere r StepMode.stepOverSource.required run.step.engine = some reason) :
      OverTurn r run (reason,run.step.suspend)

theorem overTurns (r : Registry) {run : Run} (running : run.engine.state = .running) :
    OverTurn r run (advance r StepMode.stepOverSource.required run) := by
  rw [advancePlain (by rw [running]; rfl) (by decide) (by decide)]
  cases ended : run.step.engine.state.isTerminal with
  | true =>
    rw [if_neg (by simp)]
    exact .ended ended
  | false =>
    have runs := stepRunning running ended
    split
    · next both =>
      split
      · next reason holds => exact .arrived runs both.1 reason holds
      · next free => exact .passed runs fun _ => free
    · next past => exact .passed runs fun here => absurd ⟨here,rfl⟩ past

theorem setRunning {e : Engine} (running : e.state = .running) : e.setState .running = e := by
  rw [← running]
  rfl

theorem overEndsStep {r : Registry} {start : Nat × Option ContractHash} {run : Run}
    (runs : run.step.engine.state = .running) :
    run.engine.OverEnds r start ↔
      run.engine.next?.isSome = true ∧ (run.step.engine.overReason? r start).isSome = true := by
  have alive : run.engine.executeNext.state.isTerminal = false := by
    rw [show run.engine.executeNext.state = .running from runs]
    rfl
  simp [Engine.OverEnds, alive, step]

-- The induction is on the loop: each turn makes one move, and only the last move ends the step.
theorem overEnd (r : Registry) (start : Nat × Option ContractHash) {run : Run}
    (running : run.engine.state = .running) :
    ∃ n, (Engine.executeNext^[n] run.engine).OverEnds r start ∧
      (∀ k < n, ¬ (Engine.executeNext^[k] run.engine).OverEnds r start) ∧
      (stepOver r start run).2.engine.awake = Engine.executeNext^[n + 1] run.engine ∧
      (stepOver r start run).1 = (Engine.executeNext^[n + 1] run.engine).overAnswer r start := by
  fun_induction stepOver r start run with
  | case1 run reason next advanced ended =>
    have turn := overTurns r running
    rw [advanced] at turn
    cases turn with
    | ended finished =>
      refine ⟨0,.inl finished,fun k below => absurd below (Nat.not_lt_zero k),
        Engine.awakeOfTerminal finished,?_⟩
      exact (if_pos finished).symm
    | passed runs free => simp [runs, VmState.isTerminal] at ended
    | arrived runs here reason holds => contradiction
  | case2 run reason next advanced alive stop =>
    have turn := overTurns r running
    rw [advanced] at turn
    cases turn with
    | ended finished => exact absurd finished alive
    | passed runs free => simp [runs] at stop
    | arrived runs here reason holds =>
      have found : run.step.engine.overReason? r start = some reason := by
        rw [overFiltered, holds]
        exact Option.filter_some_pos stop.2
      have woken : run.step.suspend.engine.awake = run.step.engine := by
        rw [suspend, Engine.awakeSetState (by rw [runs]; rfl) rfl, Engine.awakeOfRunning runs]
      refine ⟨0,(overEndsStep runs).mpr ⟨here,by rw [found]; rfl⟩,
        fun k below => absurd below (Nat.not_lt_zero k),woken,?_⟩
      change reason = run.step.engine.overAnswer r start
      simp [Engine.overAnswer, runs, found, VmState.isTerminal]
  | case3 run reason next advanced alive passed ih =>
    have turn := overTurns r running
    rw [advanced] at turn
    have moved :
        { next with engine := next.engine.setState .running }.engine = run.engine.executeNext ∧
          ¬ run.engine.OverEnds r start := by
      cases turn with
      | ended finished => exact absurd finished alive
      | passed runs free =>
        refine ⟨setRunning runs,fun ends => ?_⟩
        obtain ⟨here,found⟩ := (overEndsStep runs).mp ends
        rw [overFiltered, free here] at found
        contradiction
      | arrived runs here reason holds =>
        refine ⟨setRunning runs,fun ends => ?_⟩
        obtain ⟨_,found⟩ := (overEndsStep runs).mp ends
        have kept : stopsStepOver start reason run.step.engine = true := by
          simpa [overFiltered, holds, Option.filter_some] using found
        exact passed ⟨rfl,kept⟩
    obtain ⟨n,ends,before,reached,answer⟩ := ih rfl
    rw [moved.1] at ends before reached answer
    refine ⟨n + 1,ends,fun k below => ?_,reached,answer⟩
    cases k with
    | zero => exact moved.2
    | succ k => exact before k (Nat.lt_of_succ_lt_succ below)

-- Told for any run: one that has ended is refused, any other is stepped to the first such end.
theorem stepOverStops (r : Registry) (run : Run) :
    let e (n : Nat) := Engine.executeNext^[n] run.engine
    let start := place run.engine
    match resume r .stepOverSource run with
    | .error _ => run.engine.state.isTerminal = true
    | .ok (reason,next) =>
      ∃ n, (e n).OverEnds r start ∧ (∀ k < n, ¬ (e k).OverEnds r start) ∧
        next.engine.awake = (e (n + 1)).awake ∧
        reason = (e (n + 1)).overAnswer r start ∧
        (reason = .sourceLine → place next.engine = start) := by
  intro e start
  cases ended : run.engine.state.isTerminal with
  | true => rw [resumeOfTerminal r .stepOverSource ended]
  | false =>
    have running : run.engine.awake.state = .running := Engine.awakeRunning ended
    obtain ⟨n,ends,before,reached,answer⟩ :=
      @overEnd r start { run with engine := run.engine.awake } running
    have woken : ∀ k, Engine.executeNext^[k] run.engine.awake = (e k).awake := fun k =>
      (Engine.awakeIterate k run.engine).symm
    simp only [woken, Engine.overEndsAwake, Engine.overAnswerAwake] at ends before reached answer
    have out : resumeAs r .stepOverSource { run with engine := run.engine.awake } =
        stepOver r start { run with engine := run.engine.awake } :=
      congrArg (stepOver r · _) (Engine.placeAwake run.engine)
    rw [resumeOfAlive r .stepOverSource ended, out]
    generalize stepOver r start { run with engine := run.engine.awake } = out at reached answer ⊢
    obtain ⟨reason,next⟩ := out
    refine ⟨n,ends,before,reached,answer,fun line => ?_⟩
    rw [← Engine.placeAwake, reached, Engine.placeAwake]
    exact Engine.overAnswerLine (answer.symm.trans line)

end Run
end ScriptDebugger
