import ScriptDebugger.Proofs.Machine.Prologue
import ScriptDebugger.Proofs.Stepping.Stops

/-! Where a step into calls ends. Without breakpoints it goes along plain execution to the first call
that arrives at a prologue which succeeds, and stands behind that prologue; where there is none it
goes to the end. Callees without a prologue are run through, and calls within them count. -/
namespace ScriptDebugger

def Breakpoints.Unset (b : Breakpoints) : Prop :=
  ∀ contract, (∀ offset, b.hasAssembly contract offset = false) ∧
    ∀ location, b.hasSource contract location = false

namespace Engine

theorem entersNotLast {e : Engine} (enters : e.EntersPrologue) :
    e.executeNext.state.isTerminal = false := by
  obtain ⟨_,_,_,_,_,onward⟩ := enters
  exact aliveBefore onward

theorem prologueNoCall {e : Engine} (opens : e.next?.map Instruction.opcode = some .INITSLOT) :
    ¬ e.EntersPrologue := by
  rintro ⟨⟨opcode,operand⟩,entry,here,calls,_,_⟩
  rw [here] at opens
  cases opens
  contradiction

theorem entersNever {e : Engine} {n : Nat}
    (before : ∀ k < n, ¬ (executeNext^[k] e).EntersPrologue)
    (ended : (executeNext^[n] e).state.isTerminal = true) (k : Nat) :
    ¬ (executeNext^[k] e).EntersPrologue := by
  by_cases early : k < n
  · exact before k early
  · obtain ⟨more,rfl⟩ := Nat.exists_eq_add_of_le' (Nat.not_lt.mp early)
    rw [Function.iterate_add_apply, iterateOfTerminal ended]
    intro enters
    have onward := entersNotLast enters
    rw [executeNextOfTerminal ended, ended] at onward
    contradiction

theorem entersLater {e : Engine} {m n : Nat}
    (before : ∀ k < m, ¬ (executeNext^[k] e).EntersPrologue)
    (after : ∀ k < n, ¬ (executeNext^[k] (executeNext^[m] e)).EntersPrologue) (k : Nat)
    (below : k < m + n) : ¬ (executeNext^[k] e).EntersPrologue := by
  by_cases early : k < m
  · exact before k early
  · obtain ⟨more,rfl⟩ := Nat.exists_eq_add_of_le' (Nat.not_lt.mp early)
    rw [Function.iterate_add_apply]
    exact after more (by omega)

theorem markedUnset {r : Registry} {e : Engine} {reason : StopReason}
    (unset : r.breakpoints.Unset) (marked : e.Marked r reason) : reason = .sourceLine := by
  cases marked with
  | assembly _ set => simp [(unset _).1] at set
  | source _ _ _ set => simp [(unset _).2] at set
  | line => rfl

end Engine

namespace Run

open Engine (Leads leadsStep leadsThen executeNext)

variable {r : Registry} {run : Run}

theorem intoOnward (onward : (advance r StepMode.stepInto.required run).2.engine.state = .running) :
    ¬ run.engine.EntersPrologue := by
  rintro ⟨i,entry,here,calls,opens,opened⟩
  have asked : run.engine.Calls StepMode.stepInto.required :=
    ⟨i,here,Bool.and_eq_true_iff.mpr ⟨by decide,Instruction.entryIsCall calls⟩⟩
  exact (advanceOpens asked (Engine.aliveBefore opened) opens).1 onward

-- The turn of the loop that does not leave the engine running.
inductive IntoEnds (run : Run) : StopReason × Run → Prop where
  | entered (enters : run.engine.EntersPrologue) : IntoEnds run (.call,run.step.step.suspend)
  | ended {next : Run} {count : Nat} (leads : Leads count run.engine next.engine)
      (none : ∀ k < count, ¬ (executeNext^[k] run.engine).EntersPrologue)
      (ended : next.engine.state.isTerminal = true) : IntoEnds run (.none,next)

theorem endsAtOnce (alive : run.engine.state.isTerminal = false)
    (ended : run.step.engine.state.isTerminal = true) : IntoEnds run (.none,run.step) := by
  refine .ended (leadsStep alive) (fun k below enters => ?_) ended
  obtain rfl : k = 0 := Nat.lt_one_iff.mp below
  exact Bool.eq_false_iff.mp (Engine.entersNotLast enters) ended

theorem intoEnds (unset : r.breakpoints.Unset) (running : run.engine.state = .running)
    (stopped : (advance r StepMode.stepInto.required run).2.engine.state ≠ .running) :
    IntoEnds run (advance r StepMode.stepInto.required run) := by
  have cases := advanceCases r StepMode.stepInto.required run
  generalize advance r StepMode.stepInto.required run = out at cases stopped ⊢
  cases cases with
  | ended finished => simp [running, VmState.isTerminal] at finished
  | unwound alive | passed alive => exact endsAtOnce alive (stepEnded running stopped)
  | finished alive _ _ _ ended => exact endsAtOnce alive ended
  | returned _ _ _ _ _ asked => exact absurd asked (by simp [show
      StepMode.stepInto.required.contains .ret = false by decide])
  | stopped _ _ _ _ _ _ reason holds =>
    obtain ⟨asked,marked⟩ := reasonMarked holds
    rw [Engine.markedUnset unset marked] at asked
    exact absurd asked (by decide)
  | entered alive i here asked =>
    have inner := enterCallCases run
    generalize run.enterCall = out at inner stopped ⊢
    cases inner with
    | finished ended => exact endsAtOnce alive ended
    | bare onward => exact absurd (stepRunning running onward) stopped
    | ready onward opens opened =>
      obtain ⟨entry,calls⟩ :=
        Engine.callSupported here (Bool.and_eq_true_iff.mp asked).2 onward
      exact .entered ⟨i,entry,here,calls,opens,opened⟩
    | failed onward opens ended =>
      -- The prologue that fails is an instruction of the same turn, and no call.
      refine .ended (leadsThen (leadsStep alive) (leadsStep onward)) (fun k below => ?_) ended
      obtain rfl | rfl : k = 0 ∨ k = 1 := by omega
      · rintro ⟨_,_,_,_,_,opened⟩
        exact Bool.eq_false_iff.mp opened ended
      · exact Engine.prologueNoCall opens

theorem enteredLeads (running : run.engine.state = .running)
    (enters : run.engine.EntersPrologue) : Leads 2 run.engine run.step.step.suspend.engine := by
  have alive : run.engine.state.isTerminal = false := by rw [running]; rfl
  have onward : run.step.engine.state.isTerminal = false := Engine.entersNotLast enters
  have opened : run.step.step.engine.state.isTerminal = false := by
    obtain ⟨_,_,_,_,_,opened⟩ := enters
    exact opened
  exact leadsSuspend (leadsThen (leadsStep alive) (leadsStep onward)) opened

-- Told of any run: one that has ended is refused.
theorem stepIntoEnters (r : Registry) (run : Run) (unset : r.breakpoints.Unset) :
    let e (n : Nat) := executeNext^[n] run.engine.awake
    match resume r .stepInto run with
    | .error _ => run.engine.state.isTerminal = true
    | .ok (reason,next) =>
      (∃ n, (e n).EntersPrologue ∧ (∀ k < n, ¬ (e k).EntersPrologue) ∧
        Leads (n + 2) run.engine next.engine ∧ next.engine.state = .suspended ∧ reason = .call ∧
        ∃ callee opened localCount argumentCount,
          (e n).Stepped next.engine callee opened localCount argumentCount) ∨
      ((∀ n, ¬ (e n).EntersPrologue) ∧ reason = .none ∧
        ∃ n, Leads n run.engine next.engine ∧ next.engine = e n ∧
          next.engine.state.isTerminal = true) := by
  intro e
  cases ended : run.engine.state.isTerminal with
  | true => rw [resumeOfTerminal r .stepInto ended]
  | false =>
    rw [resumeOfAlive r .stepInto ended]
    obtain ⟨count,last,turn⟩ :=
      @lastTurn r .stepInto { run with engine := run.engine.awake } (Engine.awakeRunning ended)
    have before (k : Nat) (early : k < count) : ¬ (e k).EntersPrologue := by
      obtain ⟨other,same,_,onward⟩ := turn.onward k early
      rw [show e k = other.engine from same.symm]
      exact intoOnward onward
    have out : resumeAs r .stepInto { run with engine := run.engine.awake } =
        advance r StepMode.stepInto.required last := turn.out
    have ends := intoEnds unset turn.running turn.stopped
    rw [out]
    generalize advance r StepMode.stepInto.required last = out at ends ⊢
    have stands : last.engine = e count := turn.stands
    cases ends with
    | entered enters =>
      left
      obtain ⟨callee,frame,localCount,argumentCount,stepped⟩ := Engine.prologueEntered enters
      refine ⟨count,stands ▸ enters,before,
        Engine.leadsFromAwake (leadsThen turn.leads (enteredLeads turn.running enters)),rfl,rfl,
        callee,frame,localCount,argumentCount,?_⟩
      rw [← stands]
      exact ⟨stepped.entered,stepped.deeper,stepped.top,stepped.prologue,stepped.opened⟩
    | @ended next m leads none ended =>
      right
      have reached : Leads (count + m) run.engine next.engine :=
        Engine.leadsFromAwake (leadsThen turn.leads leads)
      have same : next.engine = executeNext^[count + m] run.engine.awake := by
        rw [← Engine.awakeOfTerminal ended]
        exact reached.reached
      rw [stands] at none
      exact ⟨Engine.entersNever (Engine.entersLater before none) (same ▸ ended),rfl,count + m,reached,
        same,ended⟩

-- Calls at 0 and at 2. The routine at 5 has no prologue, the one at 6 takes an argument.
theorem secondCallEntered :
    let frame : Frame :=
      { contract := .zero, script := [0x34,5,0x34,4,0x40,0x40,0x57,1,1,0x40], entry := .script
        evaluation := [.integer 5] }
    let e : Engine := { frames := [frame], gasLimit := 10, ledger := .empty }
    let r : Registry := {}
    r.breakpoints.Unset ∧ ∃ next, resume r .stepInto ⟨e,∅⟩ = .ok (.call,next) ∧
      ∃ f items, next.engine.frames.head? = some f ∧ f.position = 9 ∧ f.arguments = some items ∧
        items.length = 1 ∧ items[0]? = some (.integer 5) := by
  intro frame e r
  have unset : r.breakpoints.Unset := fun contract =>
    ⟨fun _ => by simp [r, Breakpoints.hasAssembly, Breakpoints.of],
      fun _ => by simp [r, Breakpoints.hasSource, Breakpoints.of]⟩
  have second : (executeNext^[2] e.awake).EntersPrologue :=
    ⟨⟨.CALL,[4]⟩,.internal,by decide +kernel,rfl,by decide +kernel,by decide +kernel⟩
  have first (k : Nat) (enters : (executeNext^[k] e.awake).EntersPrologue) : ¬ k < 2 := by
    intro early
    obtain ⟨_,_,_,_,opens,_⟩ := enters
    obtain rfl | rfl : k = 0 ∨ k = 1 := by omega
    all_goals
      revert opens
      decide +kernel
  refine ⟨unset,?_⟩
  have out := stepIntoEnters r ⟨e,∅⟩ unset
  cases resumed : resume r .stepInto ⟨e,∅⟩ with
  | error =>
    rw [resumed] at out
    contradiction
  | ok stop =>
    obtain ⟨reason,next⟩ := stop
    rw [resumed] at out
    rcases out with ⟨n,enters,before,_,_,rfl,callee,f,_,_,stepped⟩ | ⟨never,_⟩
    · obtain rfl : n = 2 :=
        Nat.le_antisymm (Nat.not_lt.mp fun late => before 2 late second) (Nat.not_lt.mp (first n enters))
      have called : (executeNext^[3] e.awake).frames.head? = some callee := stepped.entered
      have position : (executeNext^[3] e.awake).frames.head?.map Frame.position = some 6 := by
        decide +kernel
      have evaluation : (executeNext^[3] e.awake).frames.head?.map Frame.evaluation =
          some [.integer 5] := rfl
      have prologue : (executeNext^[3] e.awake).frames.head?.map Frame.fetched =
          some (.instruction ⟨.INITSLOT,[1,1]⟩ 3) := by decide +kernel
      rw [called] at position evaluation prologue
      cases stepped.prologue.symm.trans (Option.some.inj prologue)
      obtain ⟨moved,_,items,arguments,length,each⟩ := stepped.opened
      refine ⟨next,rfl,f,items,stepped.top,?_,arguments,length,?_⟩
      · rw [moved, Option.some.inj position]
      · rw [each 0 (by decide), Option.some.inj evaluation]
        rfl
    · exact absurd second (never 2)

end Run

end ScriptDebugger
