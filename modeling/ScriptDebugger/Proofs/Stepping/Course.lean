import ScriptDebugger.Proofs.Machine.Course
import ScriptDebugger.Stepping

/-! Stepping keeps to plain execution. What one logical step may do is said once, case by case; from
it follows that commands keep to what instructions and the state register keep to, so that a command
leaves an engine which plain execution passes, suspended or not, and that a command which ends the
engine has no reason. -/
namespace ScriptDebugger.Run

inductive Entered (run : Run) : StopReason × Run → Prop where
  | finished (ended : run.step.engine.state.isTerminal = true) : Entered run (.none,run.step)
  | bare (alive : run.step.engine.state.isTerminal = false)
      (bare : run.step.engine.next?.map Instruction.opcode ≠ some .INITSLOT) :
      Entered run (.none,run.step)
  | failed (alive : run.step.engine.state.isTerminal = false)
      (opens : run.step.engine.next?.map Instruction.opcode = some .INITSLOT)
      (ended : run.step.step.engine.state.isTerminal = true) : Entered run (.none,run.step.step)
  | ready (alive : run.step.engine.state.isTerminal = false)
      (opens : run.step.engine.next?.map Instruction.opcode = some .INITSLOT)
      (opened : run.step.step.engine.state.isTerminal = false) :
      Entered run (.call,run.step.step.suspend)

theorem enterCallCases (run : Run) : Entered run run.enterCall := by
  unfold enterCall
  dsimp only
  split
  · next ended => exact .finished ended
  · next alive =>
    have alive := Bool.eq_false_iff.mpr alive
    split
    · next bare => exact .bare alive bare
    · next opens =>
      have opens := not_not.mp opens
      split
      · next ended => exact .failed alive opens ended
      · next opened => exact .ready alive opens (Bool.eq_false_iff.mpr opened)

inductive Advanced (r : Registry) (required : StopReason) (run : Run) : StopReason × Run → Prop where
  | ended (finished : run.engine.state.isTerminal = true) : Advanced r required run (.none,run)
  | unwound (alive : run.engine.state.isTerminal = false) (past : run.engine.next? = none) :
      Advanced r required run (.none,run.step)
  | entered (alive : run.engine.state.isTerminal = false) (i : Instruction)
      (here : run.engine.next? = some i)
      (asked : (required.contains .call && i.isCall) = true) :
      Advanced r required run run.enterCall
  | finished (alive : run.engine.state.isTerminal = false) (i : Instruction)
      (here : run.engine.next? = some i)
      (plain : (required.contains .call && i.isCall) = false)
      (ended : run.step.engine.state.isTerminal = true) : Advanced r required run (.none,run.step)
  | returned (alive : run.engine.state.isTerminal = false) (i : Instruction)
      (here : run.engine.next? = some i)
      (plain : (required.contains .call && i.isCall) = false)
      (runs : run.step.engine.state.isTerminal = false)
      (asked : (required.contains .ret && i.opcode = .RET) = true) :
      Advanced r required run (.ret,run.step.suspend)
  | stopped (alive : run.engine.state.isTerminal = false) (i : Instruction)
      (here : run.engine.next? = some i)
      (plain : (required.contains .call && i.isCall) = false)
      (runs : run.step.engine.state.isTerminal = false)
      (stays : (required.contains .ret && i.opcode = .RET) = false)
      (reason : StopReason) (holds : reasonHere r required run.step.engine = some reason) :
      Advanced r required run (reason,run.step.suspend)
  | passed (alive : run.engine.state.isTerminal = false) (i : Instruction)
      (here : run.engine.next? = some i)
      (plain : (required.contains .call && i.isCall) = false)
      (runs : run.step.engine.state.isTerminal = false)
      (stays : (required.contains .ret && i.opcode = .RET) = false)
      (free : reasonHere r required run.step.engine = Option.none) :
      Advanced r required run (.none,run.step)

theorem advanceCases (r : Registry) (required : StopReason) (run : Run) :
    Advanced r required run (advance r required run) := by
  unfold advance
  split
  · next finished => exact .ended finished
  · next alive =>
    have alive := Bool.eq_false_iff.mpr alive
    split
    · next past => exact .unwound alive past
    · next i here =>
      split
      · next asked => exact .entered alive i here asked
      · next plain =>
        have plain := Bool.eq_false_iff.mpr plain
        dsimp only
        split
        · next ended => exact .finished alive i here plain ended
        · next runs =>
          have runs := Bool.eq_false_iff.mpr runs
          split
          · next asked => exact .returned alive i here plain runs asked
          · next stays =>
            have stays := Bool.eq_false_iff.mpr stays
            split
            · next reason holds => exact .stopped alive i here plain runs stays reason holds
            · next free => exact .passed alive i here plain runs stays free

-- A step that asks for neither calls nor returns looks for a reason after every instruction.
theorem advancePlain {r : Registry} {required : StopReason} {run : Run}
    (alive : run.engine.state.isTerminal = false) (noCall : required.contains .call = false)
    (noRet : required.contains .ret = false) :
    advance r required run =
      if run.engine.next?.isSome = true ∧ run.step.engine.state.isTerminal = false then
        match reasonHere r required run.step.engine with
        | some reason => (reason,run.step.suspend)
        | none => (.none,run.step)
      else (.none,run.step) := by
  have cases := advanceCases r required run
  generalize advance r required run = out at cases ⊢
  cases cases with
  | ended finished => simp [alive] at finished
  | unwound alive past => simp [past]
  | entered alive i here asked => simp [noCall] at asked
  | returned alive i here plain runs asked => simp [noRet] at asked
  | finished alive i here plain ended => simp [ended]
  | stopped alive i here plain runs stays reason holds => simp [here, runs, holds]
  | passed alive i here plain runs stays free => simp [here, runs, free]

theorem stepRunning {run : Run} (running : run.engine.state = .running)
    (alive : run.step.engine.state.isTerminal = false) : run.step.engine.state = .running := by
  rcases Engine.executeNextState (e := run.engine) (by rw [running]; rfl) with ends | stays
  · have ended : run.step.engine.state.isTerminal = true := (ends .running rfl).2
    simp [alive] at ended
  · exact (stays .running rfl).2.trans running

theorem stepEnded {run : Run} (running : run.engine.state = .running)
    (stopped : run.step.engine.state ≠ .running) : run.step.engine.state.isTerminal = true := by
  by_contra goes
  exact stopped (stepRunning running (Bool.eq_false_iff.mpr goes))

theorem runUntilOnce (r : Registry) (required : StopReason) (run : Run) :
    runUntil r required run =
      if (advance r required run).2.engine.state = .running
      then runUntil r required (advance r required run).2 else advance r required run := by
  rw [runUntil]
  rfl

theorem stepOverOnce (r : Registry) (start : Nat × Option ContractHash) (run : Run) :
    stepOver r start run =
      let next := advance r StepMode.stepOverSource.required run
      if next.2.engine.state.isTerminal then next
      else if next.2.engine.state = .suspended ∧ stopsStepOver start next.1 next.2.engine then next
      else stepOver r start { next.2 with engine := next.2.engine.setState .running } := by
  rw [stepOver]
  rfl

-- What every command keeps to, if instructions do and changes of the state register too.
structure Closed (P : Run → Run → Prop) : Prop where
  refl (run : Run) : P run run
  trans {a b c : Run} (first : P a b) (second : P b c) : P a c
  step {run : Run} (alive : run.engine.state.isTerminal = false) : P run run.step
  state {run : Run} {state : VmState} (alive : run.engine.state.isTerminal = false)
    (other : state.isTerminal = false) : P run { run with engine := run.engine.setState state }

section Closed

variable {P : Run → Run → Prop} (closed : Closed P)

include closed

theorem closedSuspend {run : Run} (alive : run.engine.state.isTerminal = false) :
    P run run.suspend := closed.state alive rfl

theorem closedAwake (run : Run) : P run { run with engine := run.engine.awake } := by
  by_cases paused : run.engine.state = .suspended
  · rw [Engine.awakeOfSuspended paused]
    exact closed.state (by rw [paused]; rfl) rfl
  · rw [Engine.awakeOfOther paused]
    exact closed.refl run

theorem closedEnterCall {run : Run} (alive : run.engine.state.isTerminal = false) :
    P run run.enterCall.2 := by
  have first := closed.step alive
  have cases := enterCallCases run
  generalize run.enterCall = out at cases ⊢
  cases cases with
  | finished ended => exact first
  | bare alive bare => exact first
  | failed alive opens ended => exact closed.trans first (closed.step alive)
  | ready alive opens opened =>
    exact closed.trans first (closed.trans (closed.step alive) (closedSuspend closed opened))

theorem closedAdvance (r : Registry) (required : StopReason) (run : Run) :
    P run (advance r required run).2 := by
  have cases := advanceCases r required run
  generalize advance r required run = out at cases ⊢
  cases cases with
  | ended finished => exact closed.refl run
  | unwound alive past => exact closed.step alive
  | entered alive i here asked => exact closedEnterCall closed alive
  | finished alive i here plain ended => exact closed.step alive
  | returned alive i here plain runs asked =>
    exact closed.trans (closed.step alive) (closedSuspend closed runs)
  | stopped alive i here plain runs stays reason holds =>
    exact closed.trans (closed.step alive) (closedSuspend closed runs)
  | passed alive i here plain runs stays free => exact closed.step alive

theorem closedRunUntil (r : Registry) (required : StopReason) (run : Run) :
    P run (runUntil r required run).2 := by
  fun_induction runUntil r required run with
  | case1 run reason next advanced running ih =>
    have first := closedAdvance closed r required run
    rw [advanced] at first
    exact closed.trans first ih
  | case2 run reason next advanced stopped =>
    have first := closedAdvance closed r required run
    rwa [advanced] at first

theorem closedStepOver (r : Registry) (start : Nat × Option ContractHash) (run : Run) :
    P run (stepOver r start run).2 := by
  fun_induction stepOver r start run with
  | case1 run reason next advanced ended =>
    have first := closedAdvance closed r StepMode.stepOverSource.required run
    rwa [advanced] at first
  | case2 run reason next advanced alive stop =>
    have first := closedAdvance closed r StepMode.stepOverSource.required run
    rwa [advanced] at first
  | case3 run reason next advanced alive passed ih =>
    have first := closedAdvance closed r StepMode.stepOverSource.required run
    rw [advanced] at first
    exact closed.trans first (closed.trans (closed.state (Bool.eq_false_iff.mpr alive) rfl) ih)

theorem closedResumeAs (r : Registry) (mode : StepMode) (run : Run) :
    P run (resumeAs r mode run).2 := by
  have untilStop := closedRunUntil closed r mode.required run
  cases mode with
  | resume => exact untilStop
  | stepInto => exact untilStop
  | stepOut => exact untilStop
  | stepOverSource => exact closedStepOver closed r (place run.engine) run
  | stepOverAssembly =>
    have first := closedAdvance closed r StepMode.stepOverAssembly.required run
    unfold resumeAs
    dsimp only
    split
    · next running => exact closed.trans first (closedSuspend closed (by rw [running]; rfl))
    · exact first

end Closed

def Follows (run next : Run) : Prop :=
  ∃ n, next.engine.awake = Engine.executeNext^[n] run.engine.awake

theorem followsClosed : Closed Follows where
  refl run := ⟨0,rfl⟩
  trans first second := by
    obtain ⟨m,hm⟩ := first
    obtain ⟨n,hn⟩ := second
    exact ⟨n + m,by rw [hn, hm, ← Function.iterate_add_apply]⟩
  step {run} _ := ⟨1,Engine.awakeExecuteNext run.engine⟩
  state alive other := ⟨0,Engine.awakeSetState alive other⟩

theorem followsAdvance (r : Registry) (required : StopReason) (run : Run) :
    Follows run (advance r required run).2 := closedAdvance followsClosed r required run

theorem followsResumeAs (r : Registry) (mode : StepMode) (run : Run) :
    Follows run (resumeAs r mode run).2 := closedResumeAs followsClosed r mode run

theorem resumeOfAlive (r : Registry) (mode : StepMode) {run : Run}
    (alive : run.engine.state.isTerminal = false) :
    resume r mode run = .ok (resumeAs r mode { run with engine := run.engine.awake }) := by
  unfold resume
  cases state : run.engine.state with
  | halted | faulted => simp [state, VmState.isTerminal] at alive
  | suspended => rw [Engine.awakeOfSuspended state]; rfl
  | running => rw [Engine.awakeOfOther (by simp [state])]; rfl

theorem resumeOfTerminal (r : Registry) (mode : StepMode) {run : Run}
    (ended : run.engine.state.isTerminal = true) :
    resume r mode run =
      .error (if run.engine.state = .halted then .engineHalted else .engineFaulted) := by
  unfold resume
  cases state : run.engine.state with
  | halted | faulted => rfl
  | suspended | running => simp [state, VmState.isTerminal] at ended

theorem closedResume {P : Run → Run → Prop} (closed : Closed P) {r : Registry} {mode : StepMode}
    {run next : Run} {reason : StopReason} (resumed : resume r mode run = .ok (reason,next)) :
    P run next := by
  cases ended : run.engine.state.isTerminal with
  | true => rw [resumeOfTerminal r mode ended] at resumed; contradiction
  | false =>
    rw [resumeOfAlive r mode ended] at resumed
    have same := Except.ok.inj resumed
    have onward := closedResumeAs closed r mode { run with engine := run.engine.awake }
    rw [same] at onward
    exact closed.trans (closedAwake closed run) onward

theorem followsResume {r : Registry} {mode : StepMode} {run next : Run} {reason : StopReason}
    (resumed : resume r mode run = .ok (reason,next)) : Follows run next :=
  closedResume followsClosed resumed

theorem reasonOfEndAdvance {r : Registry} {required : StopReason} {run : Run}
    (ended : (advance r required run).2.engine.state.isTerminal = true) :
    (advance r required run).1 = .none := by
  have cases := advanceCases r required run
  generalize advance r required run = out at cases ended ⊢
  cases cases with
  | entered alive i here asked =>
    have inner := enterCallCases run
    generalize run.enterCall = out at inner ended ⊢
    cases inner with
    | ready alive opens opened => contradiction
    | _ => rfl
  | returned alive i here plain runs asked => contradiction
  | stopped alive i here plain runs stays reason holds => contradiction
  | _ => rfl

theorem reasonOfEndRunUntil {r : Registry} {required : StopReason} {run : Run}
    (ended : (runUntil r required run).2.engine.state.isTerminal = true) :
    (runUntil r required run).1 = .none := by
  fun_induction runUntil r required run with
  | case1 run reason next advanced running ih => exact ih ended
  | case2 run reason next advanced stopped =>
    have first := @reasonOfEndAdvance r required run
    rw [advanced] at first
    exact first ended

theorem reasonOfEndStepOver {r : Registry} {start : Nat × Option ContractHash} {run : Run}
    (ended : (stepOver r start run).2.engine.state.isTerminal = true) :
    (stepOver r start run).1 = .none := by
  fun_induction stepOver r start run with
  | case1 run reason next advanced finished =>
    have first := @reasonOfEndAdvance r StepMode.stepOverSource.required run
    rw [advanced] at first
    exact first ended
  | case2 run reason next advanced alive stop => exact absurd ended alive
  | case3 run reason next advanced alive passed ih => exact ih ended

theorem reasonOfEnd {r : Registry} {mode : StepMode} {run : Run}
    (ended : (resumeAs r mode run).2.engine.state.isTerminal = true) :
    (resumeAs r mode run).1 = .none := by
  cases mode with
  | resume => exact reasonOfEndRunUntil ended
  | stepInto => exact reasonOfEndRunUntil ended
  | stepOut => exact reasonOfEndRunUntil ended
  | stepOverSource => exact reasonOfEndStepOver ended
  | stepOverAssembly => rfl

end ScriptDebugger.Run
