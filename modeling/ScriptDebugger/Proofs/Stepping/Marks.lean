import ScriptDebugger.Proofs.Stepping.Course

/-! Coverage is written and never read. What a command answers and the engine it leaves depend on the
engine, the profiles and the breakpoints alone. -/
namespace ScriptDebugger

structure Registry.Alike (r s : Registry) : Prop where
  profiles : r.profiles = s.profiles
  breakpoints : r.breakpoints = s.breakpoints

theorem Registry.profileAlike {r s : Registry} (same : r.Alike s) (contract : ContractHash) :
    r.profile? contract = s.profile? contract := by
  rw [profile?, same.profiles, profile?]

namespace Run

def unmarked (out : StopReason × Run) : StopReason × Engine := (out.1,out.2.engine)

variable {r s : Registry} {run other : Run}

theorem reasonHereAlike (same : r.Alike s) (required : StopReason) (e : Engine) :
    reasonHere r required e = reasonHere s required e := by
  unfold reasonHere
  simp only [Registry.profileAlike same, same.breakpoints]

theorem suspendUnmarked (reason : StopReason) (engines : run.engine = other.engine) :
    unmarked (reason,run.suspend) = unmarked (reason,other.suspend) :=
  congrArg (fun e : Engine => (reason,e.setState .suspended)) engines

theorem enterCallUnmarked (engines : run.engine = other.engine) :
    unmarked run.enterCall = unmarked other.enterCall := by
  have first : run.step.engine = other.step.engine := congrArg Engine.executeNext engines
  have second : run.step.step.engine = other.step.step.engine := congrArg Engine.executeNext first
  unfold enterCall
  simp only [first, second, apply_ite unmarked, suspendUnmarked .call second]
  simp only [unmarked, first, second]

theorem advanceUnmarked (same : r.Alike s) (required : StopReason)
    (engines : run.engine = other.engine) :
    unmarked (advance r required run) = unmarked (advance s required other) := by
  have first : run.step.engine = other.step.engine := congrArg Engine.executeNext engines
  unfold advance
  rw [engines]
  simp only [reasonHereAlike same, first]
  split
  · exact congrArg (Prod.mk _) engines
  · cases other.engine.next? with
    | none => exact congrArg (Prod.mk _) first
    | some i =>
      dsimp only
      split
      · exact enterCallUnmarked engines
      · split
        · exact congrArg (Prod.mk _) first
        · split
          · exact suspendUnmarked .ret first
          · cases reasonHere s required other.step.engine with
            | none => exact congrArg (Prod.mk _) first
            | some reason => exact suspendUnmarked reason first

theorem runUntilUnmarked (same : r.Alike s) (required : StopReason)
    (engines : run.engine = other.engine) :
    unmarked (runUntil r required run) = unmarked (runUntil s required other) := by
  fun_induction runUntil r required run generalizing other with
  | case1 run reason next advanced running ih =>
    have first := advanceUnmarked same required engines
    rw [advanced] at first
    have engine : next.engine = (advance s required other).2.engine := congrArg Prod.snd first
    rw [runUntilOnce s, if_pos (by rw [← engine]; exact running)]
    exact ih engine
  | case2 run reason next advanced stopped =>
    have first := advanceUnmarked same required engines
    rw [advanced] at first
    have engine : next.engine = (advance s required other).2.engine := congrArg Prod.snd first
    rw [runUntilOnce s, if_neg (by rw [← engine]; exact stopped)]
    exact first

theorem stepOverUnmarked (same : r.Alike s) (start : Nat × Option ContractHash)
    (engines : run.engine = other.engine) :
    unmarked (stepOver r start run) = unmarked (stepOver s start other) := by
  fun_induction stepOver r start run generalizing other with
  | case1 run reason next advanced ended =>
    have first := advanceUnmarked same StepMode.stepOverSource.required engines
    rw [advanced] at first
    rw [stepOverOnce s]
    obtain ⟨rfl,engine⟩ := Prod.mk.inj first
    dsimp only
    rw [← engine, if_pos ended]
    exact first
  | case2 run reason next advanced alive stop =>
    have first := advanceUnmarked same StepMode.stepOverSource.required engines
    rw [advanced] at first
    rw [stepOverOnce s]
    obtain ⟨rfl,engine⟩ := Prod.mk.inj first
    dsimp only
    rw [← engine, if_neg alive, if_pos stop]
    exact first
  | case3 run reason next advanced alive passed ih =>
    have first := advanceUnmarked same StepMode.stepOverSource.required engines
    rw [advanced] at first
    rw [stepOverOnce s]
    obtain ⟨rfl,engine⟩ := Prod.mk.inj first
    dsimp only
    rw [← engine, if_neg alive, if_neg passed]
    exact ih rfl

theorem resumeAsUnmarked (same : r.Alike s) (mode : StepMode)
    (engines : run.engine = other.engine) :
    unmarked (resumeAs r mode run) = unmarked (resumeAs s mode other) := by
  cases mode with
  | stepOverSource =>
    dsimp only [resumeAs]
    rw [engines]
    exact stepOverUnmarked same (place other.engine) engines
  | stepOverAssembly =>
    have first := advanceUnmarked same StepMode.stepOverAssembly.required engines
    have engine := congrArg Prod.snd first
    dsimp only [unmarked] at engine
    simp only [resumeAs, unmarked, suspend, apply_ite Run.engine, engine]
  | _ => exact runUntilUnmarked same _ engines

theorem resumeUnmarked (same : r.Alike s) (mode : StepMode)
    (engines : run.engine = other.engine) :
    (resume r mode run).map unmarked = (resume s mode other).map unmarked := by
  cases ended : run.engine.state.isTerminal with
  | true =>
    rw [resumeOfTerminal r mode ended, resumeOfTerminal s mode (engines ▸ ended), engines]
  | false =>
    rw [resumeOfAlive r mode ended, resumeOfAlive s mode (engines ▸ ended)]
    exact congrArg Except.ok (resumeAsUnmarked same mode (congrArg Engine.awake engines))

end Run

end ScriptDebugger
