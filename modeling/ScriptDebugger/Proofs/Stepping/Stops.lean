import ScriptDebugger.Proofs.Machine.Bracketing
import ScriptDebugger.Proofs.Stepping.Passing

/-! Why a command stops. One that ends the engine gives no reason, and one that suspends it gives a
reason that was asked for and is borne out by where the engine stands or by the last instructions. A
step over an instruction asks for none. -/
namespace ScriptDebugger

namespace Engine

open FrameM (perform)

theorem callSucceeds {e : Engine} {i : Instruction} (here : e.next? = some i)
    (calls : i.isCall = true) (onward : e.executeNext.state.isTerminal = false) :
    ∃ callee, e.Enters callee ∧ e.executeNext.frames.head? = some callee := by
  obtain ⟨entry,calls⟩ := callSupported here calls onward
  obtain ⟨caller,callee,below,length,entering,_⟩ := callEnters here calls onward
  refine ⟨callee,⟨?_,caller.waiting length entry,?_⟩,?_⟩
  · rw [entering.after]
    rfl
  · rw [entering.after, entering.shape]
    rfl
  · rw [entering.after]
    rfl

-- The instruction is a RET, and there is a caller to go back to.
def Returns (e : Engine) : Prop :=
  e.next?.map Instruction.opcode = some .RET ∧ e.executeNext.state.isTerminal = false

theorem returnResumes {e : Engine} (returns : e.Returns) :
    ∃ f caller below, e.frames = f :: caller :: below ∧
      e.executeNext.frames = f.returnTo caller :: below := by
  obtain ⟨named,onward⟩ := returns
  obtain ⟨i,here,opcode⟩ := Option.map_eq_some_iff.mp named
  obtain ⟨f,rest,length,shape,fetched⟩ := headFetched here
  obtain ⟨effect,g,ran,after⟩ := onwardPerformed shape fetched onward
  have action : i.action = .ret := by
    unfold Instruction.action
    rw [opcode]
  rw [action] at ran
  cases ran
  rw [after] at onward ⊢
  cases rest with
  | nil => contradiction
  | cons caller below => exact ⟨f,caller,below,shape,rfl⟩

theorem returnLowers {e : Engine} {i : Instruction} (here : e.next? = some i)
    (returns : i.opcode = .RET) (onward : e.executeNext.state.isTerminal = false) :
    e.executeNext.frames.length + 1 = e.frames.length := by
  obtain ⟨f,caller,below,before,after⟩ :=
    returnResumes ⟨by rw [here, Option.map_some, returns],onward⟩
  rw [before, after]
  rfl

-- What a reason says of the place where the engine stands.
inductive Marked (r : Registry) (e : Engine) : StopReason → Prop where
  | assembly {f : Frame} (top : e.frames.head? = some f)
      (set : r.breakpoints.hasAssembly f.contract f.position = true) :
      Marked r e .assemblyBreakpoint
  | source {f : Frame} {line : SourceLine} (top : e.frames.head? = some f)
      (unset : r.breakpoints.hasAssembly f.contract f.position = false)
      (starts : e.lineHere? r = some line)
      (set : r.breakpoints.hasSource f.contract line.location = true) :
      Marked r e .sourceBreakpoint
  | line {f : Frame} {line : SourceLine} (top : e.frames.head? = some f)
      (unset : r.breakpoints.hasAssembly f.contract f.position = false)
      (starts : e.lineHere? r = some line)
      (free : r.breakpoints.hasSource f.contract line.location = false) :
      Marked r e .sourceLine

-- What a reason says of the instruction that the engine at `n` was stopped after.
inductive StoppedAfter (r : Registry) (e : Nat → Engine) (n : Nat) : StopReason → Prop where
  | marked {reason : StopReason} (marked : (e (n + 1)).Marked r reason) : StoppedAfter r e n reason
  | call {m : Nat} (second : n = m + 1) {i : Instruction} (here : (e m).next? = some i)
      (calls : i.isCall = true) {callee : Frame} (enters : (e m).Enters callee)
      (top : (e n).frames.head? = some callee)
      (opens : (e n).next?.map Instruction.opcode = some .INITSLOT) : StoppedAfter r e n .call
  | ret {i : Instruction} (here : (e n).next? = some i) (returns : i.opcode = .RET)
      (lower : (e (n + 1)).frames.length + 1 = (e n).frames.length) : StoppedAfter r e n .ret

theorem stoppedLater {r : Registry} {e : Nat → Engine} {count n : Nat} {reason : StopReason}
    (stopped : StoppedAfter r (fun k => e (count + k)) n reason) :
    StoppedAfter r e (count + n) reason := by
  cases stopped with
  | marked marked => exact .marked marked
  | call second here calls enters top opens =>
    subst second
    exact .call rfl here calls enters top opens
  | ret here returns lower => exact .ret here returns lower

theorem stoppedReason {r : Registry} {e : Nat → Engine} {n : Nat} {reason : StopReason}
    (stopped : StoppedAfter r e n reason) : reason ≠ .none := by
  cases stopped with
  | marked marked => cases marked <;> decide
  | call | ret => decide

theorem markedHere {r : Registry} {e : Engine} {reason : StopReason} {line : Bool}
    (found : (e.breakpoint? r).or
      (if line && (e.lineHere? r).isSome then some .sourceLine else none) = some reason) :
    e.Marked r reason := by
  cases shape : e.frames with
  | nil => simp [breakpoint?, lineHere?, shape] at found
  | cons f rest =>
    have top : e.frames.head? = some f := by rw [shape]; rfl
    have starts : e.lineHere? r =
        (r.profile? f.contract).bind fun p => p.map.lineStart? f.position := by
      rw [lineHere?, top, Option.bind_some]
    simp only [breakpoint?, shape, ← starts] at found
    cases assembly : r.breakpoints.hasAssembly f.contract f.position with
    | true =>
      obtain rfl : .assemblyBreakpoint = reason := by simpa [assembly] using found
      exact .assembly top assembly
    | false =>
      cases here : e.lineHere? r with
      | none => simp [assembly, here] at found
      | some start =>
        cases source : r.breakpoints.hasSource f.contract start.location with
        | true =>
          obtain rfl : .sourceBreakpoint = reason := by
            simpa [assembly, here, source] using found
          exact .source top assembly here source
        | false =>
          cases line with
          | false => simp [assembly, here, source] at found
          | true =>
            obtain rfl : .sourceLine = reason := by simpa [assembly, here, source] using found
            exact .line top assembly here source

end Engine

namespace Run

open Engine (Leads StoppedAfter leadsStep leadsThen executeNext)

variable {r : Registry} {mode : StepMode} {run : Run}

theorem reasonMarked {e : Engine} {reason : StopReason}
    (holds : reasonHere r mode.required e = some reason) :
    mode.required.contains reason = true ∧ e.Marked r reason := by
  have assembly : mode.required.contains .assemblyBreakpoint = true := by cases mode <;> decide
  have source : mode.required.contains .sourceBreakpoint = true := by cases mode <;> decide
  rw [reasonHereAsked assembly source] at holds
  refine ⟨?_,Engine.markedHere holds⟩
  cases found : e.breakpoint? r with
  | some kind =>
    rw [found, Option.some_or] at holds
    cases Option.some.inj holds
    rcases Engine.breakpointKind found with rfl | rfl
    · exact assembly
    · exact source
  | none =>
    rw [found, Option.none_or] at holds
    split at holds
    · next both =>
      cases Option.some.inj holds
      exact (Bool.and_eq_true_iff.mp both).1
    · contradiction

-- What a command may leave that stops after the engine at `n`.
def Justified (r : Registry) (mode : StepMode) (e : Nat → Engine) (n : Nat)
    (out : StopReason × Run) : Prop :=
  match out.2.engine.state with
  | .running => False
  | .halted | .faulted => out.1 = .none
  | .suspended => mode.required.contains out.1 = true ∧ StoppedAfter r e n out.1

theorem justifiedEnd {e : Nat → Engine} {n : Nat}
    (ended : run.engine.state.isTerminal = true) : Justified r mode e n (.none,run) := by
  unfold Justified
  cases state : run.engine.state with
  | halted | faulted => rfl
  | running | suspended => simp [state, VmState.isTerminal] at ended

theorem justifiedLater {e : Nat → Engine} {count n : Nat} {out : StopReason × Run}
    (justified : Justified r mode (fun k => e (count + k)) n out) :
    Justified r mode e (count + n) out := by
  unfold Justified at justified ⊢
  cases state : out.2.engine.state with
  | suspended =>
    rw [state] at justified
    exact ⟨justified.1,Engine.stoppedLater justified.2⟩
  | running | halted | faulted =>
    rw [state] at justified
    exact justified

theorem enterCallJustified (running : run.engine.state = .running) {i : Instruction}
    (here : run.engine.next? = some i)
    (asked : (mode.required.contains .call && i.isCall) = true)
    (stopped : run.enterCall.2.engine.state ≠ .running) :
    ∃ n, Leads (n + 1) run.engine run.enterCall.2.engine ∧
      Justified r mode (fun k => executeNext^[k] run.engine) n run.enterCall := by
  have first : Leads 1 run.engine run.step.engine := leadsStep (by rw [running]; rfl)
  have cases := enterCallCases run
  generalize run.enterCall = out at cases stopped ⊢
  cases cases with
  | finished ended => exact ⟨0,first,justifiedEnd ended⟩
  | bare alive => exact absurd (stepRunning running alive) stopped
  | failed alive _ ended => exact ⟨1,leadsThen first (leadsStep alive),justifiedEnd ended⟩
  | ready alive opens opened =>
    obtain ⟨contained,calls⟩ := Bool.and_eq_true_iff.mp asked
    obtain ⟨callee,enters,top⟩ := Engine.callSucceeds here calls alive
    exact ⟨1,leadsSuspend (leadsThen first (leadsStep alive)) opened,contained,
      .call rfl here calls enters top opens⟩

theorem advanceJustified (running : run.engine.state = .running)
    (stopped : (advance r mode.required run).2.engine.state ≠ .running) :
    ∃ n, Leads (n + 1) run.engine (advance r mode.required run).2.engine ∧
      Justified r mode (fun k => executeNext^[k] run.engine) n (advance r mode.required run) := by
  have first : Leads 1 run.engine run.step.engine := leadsStep (by rw [running]; rfl)
  have cases := advanceCases r mode.required run
  generalize advance r mode.required run = out at cases stopped ⊢
  cases cases with
  | ended finished => simp [running, VmState.isTerminal] at finished
  | unwound | finished | passed => exact ⟨0,first,justifiedEnd (stepEnded running stopped)⟩
  | entered _ i here asked => exact enterCallJustified running here asked stopped
  | returned _ i here _ runs asked =>
    obtain ⟨contained,returns⟩ := Bool.and_eq_true_iff.mp asked
    have opcode : i.opcode = .RET := of_decide_eq_true returns
    exact ⟨0,leadsSuspend first runs,contained,
      .ret here opcode (Engine.returnLowers here opcode runs)⟩
  | stopped _ i here _ runs _ reason holds =>
    obtain ⟨contained,marked⟩ := reasonMarked holds
    exact ⟨0,leadsSuspend first runs,contained,.marked marked⟩

theorem runUntilJustified (running : run.engine.state = .running) :
    ∃ n, Leads (n + 1) run.engine (runUntil r mode.required run).2.engine ∧
      Justified r mode (fun k => executeNext^[k] run.engine) n (runUntil r mode.required run) := by
  obtain ⟨count,last,turn⟩ := @lastTurn r mode run running
  obtain ⟨n,leads,justified⟩ := @advanceJustified r mode last turn.running turn.stopped
  have onward : (fun k => executeNext^[k] last.engine) =
      fun k => executeNext^[count + k] run.engine := by
    funext k
    rw [turn.stands, ← Function.iterate_add_apply, Nat.add_comm]
  rw [onward] at justified
  rw [turn.out]
  refine ⟨count + n,?_,@justifiedLater r mode (fun k => executeNext^[k] run.engine) _ _ _ justified⟩
  rw [Nat.add_assoc]
  exact leadsThen turn.leads leads

theorem stepOverState (r : Registry) (start : Nat × Option ContractHash) (run : Run) :
    (stepOver r start run).2.engine.state.isTerminal = true ∨
      (stepOver r start run).2.engine.state = .suspended := by
  fun_induction stepOver r start run with
  | case1 run reason next advanced ended => exact .inl ended
  | case2 run reason next advanced alive stop => exact .inr stop.1
  | case3 run reason next advanced alive passed ih => exact ih

theorem overMarked {start : Nat × Option ContractHash} {e : Engine} {reason : StopReason}
    (found : e.overReason? r start = some reason) :
    StepMode.stepOverSource.required.contains reason = true ∧ e.Marked r reason := by
  have marked : e.Marked r reason := by
    apply @Engine.markedHere r e reason (decide (place e = start))
    rw [← found, Engine.overReason?]
    simp only [Bool.and_eq_true, decide_eq_true_eq, and_comm]
  refine ⟨?_,marked⟩
  cases marked <;> decide

theorem overLeads (r : Registry) (start : Nat × Option ContractHash)
    (running : run.engine.state = .running) :
    ∃ n, Leads (n + 1) run.engine (stepOver r start run).2.engine ∧
      (executeNext^[n] run.engine).OverEnds r start ∧
      (stepOver r start run).1 = (executeNext^[n + 1] run.engine).overAnswer r start := by
  obtain ⟨n,ends,before,reached,answer⟩ := overEnd r start running
  have alive (k : Nat) (early : k < n + 1) :
      (executeNext^[k] run.engine).state.isTerminal = false := by
    cases k with
    | zero => rw [Function.iterate_zero, id, running]; rfl
    | succ k =>
      rw [Function.iterate_succ_apply']
      exact Bool.eq_false_iff.mpr fun ended => before k (Nat.lt_of_succ_lt_succ early) (.inl ended)
  refine ⟨n,⟨?_,?_⟩,ends,answer⟩ <;> rwa [Engine.awakeOfRunning running]

theorem overFound {start : Nat × Option ContractHash} {e : Engine} (ends : e.OverEnds r start)
    (goes : e.executeNext.state.isTerminal = false) :
    ∃ reason, e.executeNext.overReason? r start = some reason ∧
      e.executeNext.overAnswer r start = reason := by
  rw [Engine.OverEnds, goes] at ends
  obtain ⟨_,some⟩ := ends.resolve_left Bool.false_ne_true
  obtain ⟨reason,found⟩ := Option.isSome_iff_exists.mp some
  refine ⟨reason,found,?_⟩
  rw [Engine.overAnswer, goes, if_neg Bool.false_ne_true, found, Option.getD_some]

theorem stepOverJustified (start : Nat × Option ContractHash) (running : run.engine.state = .running) :
    ∃ n, Leads (n + 1) run.engine (stepOver r start run).2.engine ∧
      Justified r .stepOverSource (fun k => executeNext^[k] run.engine) n (stepOver r start run) := by
  obtain ⟨n,leads,ends,answer⟩ := overLeads r start running
  have state := stepOverState r start run
  refine ⟨n,leads,?_⟩
  have onward : (executeNext^[n + 1] run.engine).state.isTerminal =
      (stepOver r start run).2.engine.state.isTerminal := by
    rw [← Engine.awakeOfRunning running, ← leads.reached, Engine.awakeTerminal]
  generalize stepOver r start run = out at answer state onward ⊢
  obtain ⟨reason,next⟩ := out
  rcases state with ended | paused
  · rw [Engine.overAnswer, onward, ended, if_pos rfl] at answer
    cases answer
    exact justifiedEnd ended
  · rw [paused, Function.iterate_succ_apply'] at onward
    obtain ⟨holding,found,same⟩ := overFound ends onward
    rw [Function.iterate_succ_apply', same] at answer
    rw [← Function.iterate_succ_apply' executeNext n] at found
    dsimp only at answer paused
    obtain ⟨contained,marked⟩ := overMarked found
    rw [Justified, paused, answer]
    exact ⟨contained,.marked marked⟩

theorem resumeAsJustified (running : run.engine.state = .running)
    (other : mode ≠ .stepOverAssembly) :
    ∃ n, Leads (n + 1) run.engine (resumeAs r mode run).2.engine ∧
      Justified r mode (fun k => executeNext^[k] run.engine) n (resumeAs r mode run) := by
  cases mode with
  | resume => exact runUntilJustified running
  | stepInto => exact runUntilJustified running
  | stepOut => exact runUntilJustified running
  | stepOverSource => exact stepOverJustified (place run.engine) running
  | stepOverAssembly => exact absurd rfl other

theorem stepOnceJustified (running : run.engine.state = .running) :
    Leads 1 run.engine (resumeAs r .stepOverAssembly run).2.engine ∧
      (resumeAs r .stepOverAssembly run).2.engine.state ≠ .running := by
  obtain ⟨n,leads,_,once⟩ := @advanceLeads r .stepOverAssembly run (by rw [running]; rfl)
  obtain rfl : n = 1 := once fun entered => absurd (callsAsked entered.1) (by decide)
  unfold resumeAs
  dsimp only
  split
  · next going => exact ⟨leadsSuspend leads (by rw [going]; rfl),nofun⟩
  · next still => exact ⟨leads,still⟩

-- Told of any run: one that has ended is refused, any other comes to a stop.
theorem stopsJustified (r : Registry) (mode : StepMode) (run : Run) :
    let e (k : Nat) := executeNext^[k] run.engine.awake
    match resume r mode run with
    | .error _ => run.engine.state.isTerminal = true
    | .ok (reason,next) =>
      ∃ n, Leads (n + 1) run.engine next.engine ∧ (mode = .stepOverAssembly → n = 0) ∧
        match next.engine.state with
        | .running => False
        | .halted | .faulted => reason = .none
        | .suspended =>
          (reason = .none ↔ mode = .stepOverAssembly) ∧
            (mode ≠ .stepOverAssembly →
              mode.required.contains reason = true ∧ StoppedAfter r e n reason) := by
  intro e
  cases ended : run.engine.state.isTerminal with
  | true => rw [resumeOfTerminal r mode ended]
  | false =>
    rw [resumeOfAlive r mode ended]
    have running : run.engine.awake.state = .running := Engine.awakeRunning ended
    by_cases once : mode = .stepOverAssembly
    · subst once
      obtain ⟨leads,still⟩ := @stepOnceJustified r { run with engine := run.engine.awake } running
      refine ⟨0,Engine.leadsFromAwake leads,fun _ => rfl,?_⟩
      split
      · next going => exact still going
      · rfl
      · rfl
      · exact ⟨iff_of_true rfl rfl,fun other => absurd rfl other⟩
    · obtain ⟨n,leads,justified⟩ :=
        @resumeAsJustified r mode { run with engine := run.engine.awake } running once
      generalize resumeAs r mode { run with engine := run.engine.awake } = out at leads justified ⊢
      obtain ⟨reason,next⟩ := out
      refine ⟨n,Engine.leadsFromAwake leads,fun only => absurd only once,?_⟩
      unfold Justified at justified
      dsimp only at justified ⊢
      cases state : next.engine.state with
      | running | halted | faulted => rwa [state] at justified
      | suspended =>
        rw [state] at justified
        exact ⟨iff_of_false (Engine.stoppedReason justified.2) once,fun _ => justified⟩

end Run
end ScriptDebugger
