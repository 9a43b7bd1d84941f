import ScriptDebugger.Machine.Engine
import ScriptDebugger.Registry
import ScriptDebugger.StopReason

/-! Stepping through a run. One logical step executes an instruction, or a call with the prologue
of its callee, marks what it executed as covered, and suspends the engine where a reason that was
asked for holds. Main statement: a step that leaves the engine alive lowers its rank, so every
command ends. -/
namespace ScriptDebugger

structure Run where
  engine : Engine
  coverage : Coverage

namespace Run

def suspend (run : Run) : Run := { run with engine := run.engine.setState .suspended }

/-- Executes one instruction and marks it for the contract and offset it stood at, whatever frame
it leads to. -/
def step (run : Run) : Run where
  engine := run.engine.executeNext
  coverage :=
    match run.engine.frames.head? with
    | some f => run.coverage.mark f.contract f.position
    | none => run.coverage

def enterCall (run : Run) : StopReason × Run :=
  let entered := run.step
  if entered.engine.state.isTerminal then (.none, entered)
  else if entered.engine.next?.map Instruction.opcode ≠ some .INITSLOT then (.none, entered)
  else
    let ready := entered.step
    if ready.engine.state.isTerminal then (.none, ready) else (.call, ready.suspend)

/-- The first reason asked for that holds where the engine stands: a breakpoint on the offset, a
breakpoint on the line that starts there, any line that starts there. -/
def reasonHere (r : Registry) (required : StopReason) (e : Engine) : Option StopReason := do
  let f ← e.frames.head?
  let line := (r.profile? f.contract).bind fun p => p.map.lineStart? f.position
  if required.contains .assemblyBreakpoint && r.breakpoints.hasAssembly f.contract f.position then
    return .assemblyBreakpoint
  if required.contains .sourceBreakpoint &&
      (line.map fun l => r.breakpoints.hasSource f.contract l.location).getD false then
    return .sourceBreakpoint
  if required.contains .sourceLine && line.isSome then return .sourceLine
  Option.none

def advance (r : Registry) (required : StopReason) (run : Run) : StopReason × Run :=
  if run.engine.state.isTerminal then (.none, run)
  else match run.engine.next? with
    | none => (.none, run.step)
    | some i =>
      if required.contains .call && i.isCall then run.enterCall
      else
        let next := run.step
        if next.engine.state.isTerminal then (.none, next)
        else if required.contains .ret && i.opcode = .RET then (.ret, next.suspend)
        else match reasonHere r required next.engine with
          | some reason => (reason, next.suspend)
          | none => (.none, next)

theorem rankStep {run : Run} (h : run.engine.state.isTerminal = false) :
    run.step.engine.rank < run.engine.rank :=
  Engine.rankDecreases h

theorem rankSuspend {run : Run} (h : run.engine.state.isTerminal = false) :
    run.suspend.engine.rank = run.engine.rank :=
  Engine.rankSetState h

theorem rankEnterCall {run : Run} (h : run.engine.state.isTerminal = false) :
    run.enterCall.2.engine.rank < run.engine.rank := by
  have first := rankStep h
  unfold enterCall
  dsimp only
  split
  · exact first
  · next alive =>
    have alive := Bool.eq_false_iff.mpr alive
    split
    · exact first
    · have second := rankStep alive
      split
      · exact Nat.lt_trans second first
      · next alive' =>
        rw [rankSuspend (Bool.eq_false_iff.mpr alive')]
        exact Nat.lt_trans second first

theorem rankAdvance {r : Registry} {required : StopReason} {run : Run}
    (h : (advance r required run).2.engine.state.isTerminal = false) :
    (advance r required run).2.engine.rank < run.engine.rank := by
  unfold advance at h ⊢
  split at h
  · next ended => simp [ended] at h
  · next alive =>
    have first := rankStep (Bool.eq_false_iff.mpr alive)
    rw [if_neg alive]
    split
    · exact first
    · split
      · exact rankEnterCall (Bool.eq_false_iff.mpr alive)
      · dsimp only
        split
        · exact first
        · next alive' =>
          have same := rankSuspend (Bool.eq_false_iff.mpr alive')
          split
          · rw [same]; exact first
          · split
            · rw [same]; exact first
            · exact first

def runUntil (r : Registry) (required : StopReason) (run : Run) : StopReason × Run :=
  match _advanced : advance r required run with
  | (reason, next) =>
    if _running : next.engine.state = .running then runUntil r required next else (reason, next)
termination_by run.engine.rank
decreasing_by
  have lower := @rankAdvance r required run
  rw [_advanced] at lower
  exact lower (by rw [_running]; rfl)

def place (e : Engine) : Nat × Option ContractHash := (e.frames.length, e.frames.head?.map Frame.contract)

def stopsStepOver (start : Nat × Option ContractHash) (reason : StopReason) (e : Engine) : Bool :=
  reason.intersects .breakpoint || (reason.contains .sourceLine && place e = start)

def stepOver (r : Registry) (start : Nat × Option ContractHash) (run : Run) : StopReason × Run :=
  match _advanced : advance r StepMode.stepOverSource.required run with
  | (reason, next) =>
    if _ended : next.engine.state.isTerminal then (reason, next)
    else if next.engine.state = .suspended ∧ stopsStepOver start reason next.engine then
      (reason, next)
    else stepOver r start { next with engine := next.engine.setState .running }
termination_by run.engine.rank
decreasing_by
  have lower := @rankAdvance r StepMode.stepOverSource.required run
  rw [_advanced] at lower
  have alive := Bool.eq_false_iff.mpr _ended
  rw [Engine.rankSetState alive]
  exact lower alive

def resumeAs (r : Registry) (mode : StepMode) (run : Run) : StopReason × Run :=
  match mode with
  | .resume | .stepInto | .stepOut => runUntil r mode.required run
  | .stepOverSource => stepOver r (place run.engine) run
  | .stepOverAssembly =>
    let next := (advance r mode.required run).2
    (.none, if next.engine.state = .running then next.suspend else next)

def resume (r : Registry) (mode : StepMode) (run : Run) : Result (StopReason × Run) :=
  match run.engine.state with
  | .halted => throw .engineHalted
  | .faulted => throw .engineFaulted
  | .suspended => return resumeAs r mode { run with engine := run.engine.setState .running }
  | .running => return resumeAs r mode run

end Run

end ScriptDebugger
