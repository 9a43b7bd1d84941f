import ScriptDebugger.Proofs.Machine.Rebase
import ScriptDebugger.Proofs.Stepping.Course

/-! Stepping over other layers: every command gives the same reason and marks the same coverage, and
leaves the same engine but for the layers below. -/
namespace ScriptDebugger.Run

open Engine (Rebases)

def rebase (below : List Layer) (run : Run) : Run := { run with engine := run.engine.rebase below }

def rebased (below : List Layer) (out : StopReason × Run) : StopReason × Run :=
  (out.1,out.2.rebase below)

variable {below : List Layer} {run : Run}

theorem stateRebase : (run.rebase below).engine.state = run.engine.state := rfl

theorem nextRebase : (run.rebase below).engine.next? = run.engine.next? := rfl

theorem reasonRebase (r : Registry) (required : StopReason) :
    reasonHere r required (run.rebase below).engine = reasonHere r required run.engine := rfl

theorem stepRebase (reads : Rebases below run.engine) :
    (run.rebase below).step = run.step.rebase below := by
  unfold step rebase
  dsimp only
  rw [Engine.executeNextRebase reads]
  rfl

theorem rebasesStep (reads : Rebases below run.engine) : Rebases below run.step.engine :=
  Engine.rebasesExecuteNext reads

theorem enterCallRebase (reads : Rebases below run.engine) :
    (run.rebase below).enterCall = rebased below run.enterCall := by
  unfold enterCall
  simp only [stepRebase reads, stepRebase (rebasesStep reads), stateRebase, nextRebase]
  split
  · rfl
  · split
    · rfl
    · split <;> rfl

theorem advanceRebase (r : Registry) (required : StopReason) (reads : Rebases below run.engine) :
    advance r required (run.rebase below) = rebased below (advance r required run) := by
  unfold advance
  simp only [stepRebase reads, enterCallRebase reads, stateRebase, nextRebase, reasonRebase]
  split
  · rfl
  · cases run.engine.next? with
    | none => rfl
    | some i =>
      dsimp only
      split
      · rfl
      · split
        · rfl
        · split
          · rfl
          · cases reasonHere r required run.step.engine <;> rfl

theorem rebasesFollows {next : Run} (follows : Follows run next)
    (reads : Rebases below run.engine) : Rebases below next.engine := by
  obtain ⟨n,reached⟩ := follows
  have later := Engine.rebasesIterate (Engine.rebasesAwake reads) n
  unfold Rebases at later ⊢
  rwa [← reached, Engine.awakeLedger] at later

theorem runUntilRebase (r : Registry) (required : StopReason) (reads : Rebases below run.engine) :
    runUntil r required (run.rebase below) = rebased below (runUntil r required run) := by
  fun_induction runUntil r required run with
  | case1 run reason next advanced running ih =>
    have first := advanceRebase r required reads
    have kept := rebasesFollows (followsAdvance r required run) reads
    rw [advanced] at first kept
    rw [runUntilOnce, first]
    exact (if_pos running).trans (ih kept)
  | case2 run reason next advanced stopped =>
    have first := advanceRebase r required reads
    rw [advanced] at first
    rw [runUntilOnce, first]
    exact if_neg stopped

theorem stepOverRebase (r : Registry) (start : Nat × Option ContractHash)
    (reads : Rebases below run.engine) :
    stepOver r start (run.rebase below) = rebased below (stepOver r start run) := by
  fun_induction stepOver r start run with
  | case1 run reason next advanced ended =>
    have first := advanceRebase r StepMode.stepOverSource.required reads
    rw [advanced] at first
    rw [stepOverOnce, first]
    exact if_pos ended
  | case2 run reason next advanced alive stop =>
    have first := advanceRebase r StepMode.stepOverSource.required reads
    rw [advanced] at first
    rw [stepOverOnce, first]
    exact (if_neg alive).trans (if_pos stop)
  | case3 run reason next advanced alive passed ih =>
    have first := advanceRebase r StepMode.stepOverSource.required reads
    have kept := rebasesFollows (followsAdvance r StepMode.stepOverSource.required run) reads
    rw [advanced] at first kept
    rw [stepOverOnce, first]
    exact (if_neg alive).trans ((if_neg passed).trans (ih kept))

theorem resumeAsRebase (r : Registry) (mode : StepMode) (reads : Rebases below run.engine) :
    resumeAs r mode (run.rebase below) = rebased below (resumeAs r mode run) := by
  cases mode with
  | stepOverSource => exact stepOverRebase r (place run.engine) reads
  | stepOverAssembly =>
    have first := advanceRebase r StepMode.stepOverAssembly.required reads
    unfold resumeAs
    dsimp only
    rw [first]
    by_cases running :
      (advance r StepMode.stepOverAssembly.required run).2.engine.state = .running
    · rw [if_pos running]
      exact congrArg (Prod.mk _) (if_pos running)
    · rw [if_neg running]
      exact congrArg (Prod.mk _) (if_neg running)
  | _ => exact runUntilRebase r _ reads

theorem resumeRebase (r : Registry) (mode : StepMode) (reads : Rebases below run.engine) :
    resume r mode (run.rebase below) = (resume r mode run).map (rebased below) := by
  cases ended : run.engine.state.isTerminal with
  | true =>
    rw [resumeOfTerminal r mode ended, @resumeOfTerminal r mode (run.rebase below) ended]
    rfl
  | false =>
    have awake : Rebases below run.engine.awake := Engine.rebasesAwake reads
    have same := @resumeAsRebase below { run with engine := run.engine.awake } r mode awake
    rw [resumeOfAlive r mode ended, @resumeOfAlive r mode (run.rebase below) ended]
    rw [show (run.rebase below).engine.awake = run.engine.awake.rebase below from
      Engine.awakeRebase below run.engine]
    exact congrArg Except.ok same

end ScriptDebugger.Run
