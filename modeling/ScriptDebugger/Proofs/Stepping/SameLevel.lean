import ScriptDebugger.Proofs.Machine.Activation
import ScriptDebugger.Proofs.Stepping.Stops

/-! Which frame a step over a source line stops in. The step knows the frame it began in by its depth
and its contract. It is that frame as long as that one was not left, and otherwise one that a later call
of the contract has pushed at the same depth. -/
namespace ScriptDebugger

namespace Engine

theorem overAnswerStands {r : Registry} {start : Nat × Option ContractHash} {e : Engine}
    (line : e.overAnswer r start = .sourceLine) :
    e.state.isTerminal = false ∧ ∃ g below, e.frames = g :: below := by
  unfold overAnswer at line
  split at line
  · contradiction
  · next alive =>
    refine ⟨Bool.eq_false_iff.mpr alive,?_⟩
    cases found : e.overReason? r start with
    | none =>
      rw [found] at line
      contradiction
    | some reason =>
      rw [found, Option.getD_some] at line
      cases line
      cases (Run.overMarked found).2 with
      | line top =>
        obtain ⟨below,shape⟩ := List.head?_eq_some_iff.mp top
        exact ⟨_,below,shape⟩

end Engine

namespace Run

open Engine (Leads Occupies executeNext)

theorem placeLevel {before after : Engine} {g : Frame} {below : List Frame}
    (same : place after = place before) (shape : after.frames = g :: below) :
    ∃ f lower, before.frames = f :: lower ∧ below.length = lower.length ∧
      g.contract = f.contract := by
  unfold place at same
  cases bottom : before.frames with
  | nil =>
    rw [shape, bottom] at same
    cases same
  | cons f lower =>
    rw [shape, bottom] at same
    obtain ⟨length,contract⟩ := Prod.mk.inj same
    exact ⟨f,lower,rfl,Nat.succ.inj length,Option.some.inj contract⟩

-- Told of any run: one that has ended is refused. A breakpoint stops the step in any frame.
theorem stepOverLevel (r : Registry) (run : Run) :
    match resume r .stepOverSource run with
    | .error _ => run.engine.state.isTerminal = true
    | .ok (reason,next) =>
      reason = .sourceLine → ∃ n f lower g below, Leads (n + 1) run.engine next.engine ∧
        run.engine.frames = f :: lower ∧ next.engine.frames = g :: below ∧
        below.length = lower.length ∧ g.contract = f.contract ∧
        Occupies f lower run.engine.awake (n + 1) g below := by
  cases ended : run.engine.state.isTerminal with
  | true => rw [resumeOfTerminal r .stepOverSource ended]
  | false =>
    obtain ⟨n,leads,_,answer⟩ :=
      @overLeads { run with engine := run.engine.awake } r (place run.engine.awake)
        (Engine.awakeRunning ended)
    have out : resumeAs r .stepOverSource { run with engine := run.engine.awake } =
        stepOver r (place run.engine.awake) { run with engine := run.engine.awake } := rfl
    rw [resumeOfAlive r .stepOverSource ended, out]
    generalize stepOver r (place run.engine.awake) { run with engine := run.engine.awake } = out
      at leads answer ⊢
    obtain ⟨reason,next⟩ := out
    dsimp only at answer leads ⊢
    intro line
    rw [line] at answer
    obtain ⟨alive,g,below,shape⟩ := Engine.overAnswerStands answer.symm
    obtain ⟨f,lower,before,level,contract⟩ :=
      placeLevel (Engine.overAnswerLine answer.symm) shape
    have now : next.engine.frames = g :: below := by
      rw [← Engine.framesAwake, leads.reached, Engine.awakeAwake, shape]
    have occupies := Engine.occupiesDepth before shape level alive
    rw [Engine.framesAwake] at before
    exact ⟨n,f,lower,g,below,Engine.leadsFromAwake leads,before,now,level,contract,occupies⟩

-- The routine at 5 returns to its caller, which calls the one at 6. The step takes the line that starts
-- there for one of its own frame.
theorem stepOverRecalled :
    let script : Bytes := [0x34,5,0x34,4,0x40,0x40,0x40]
    let routine : Frame := { contract := .zero, script, position := 5, entry := .internal }
    let caller : Frame := { contract := .zero, script, position := 2, entry := .script }
    let run : Run := ⟨{ frames := [routine,caller], gasLimit := 10, ledger := .empty },∅⟩
    let line : SourceLine := ⟨⟨"a.cs",1⟩,none⟩
    let p : Profile := ⟨.zero,⟨[],[],[]⟩,{ lineStarts := .ofList [(6,line)] }⟩
    let r : Registry := { profiles := .ofList [(p.contract,p)] }
    ∃ n next, resume r .stepOverSource run = .ok (.sourceLine,next) ∧
      Leads n run.engine next.engine ∧
      ∃ k ≤ n, (executeNext^[k] run.engine).frames.length < run.engine.frames.length := by
  intro script routine caller run line p r
  have reason : (stepOver r (place run.engine) run).1 = .sourceLine := by decide +kernel
  have below : run.engine.executeNext.frames.length < run.engine.frames.length := by
    decide +kernel
  have resumed : resume r .stepOverSource run = .ok (stepOver r (place run.engine) run) := rfl
  obtain ⟨n,leads,_⟩ := @overLeads run r (place run.engine) rfl
  refine ⟨n + 1,(stepOver r (place run.engine) run).2,?_,leads,1,Nat.le_add_left 1 n,below⟩
  rw [resumed, ← reason]

end Run
end ScriptDebugger
