import ScriptDebugger.Proofs.Stepping.Stops

/-! Where a step out ends. It goes along plain execution to the first RET that leads back to a caller,
whichever frame executes it, unless a breakpoint or the end comes before: the frame that is left is the
one the step began in only if no function that was called from there has returned by a RET of its own. -/
namespace ScriptDebugger

namespace Run

open Engine (Leads leadsStep leadsThen executeNext)

variable {r : Registry} {run : Run}

theorem advanceReturns (returns : run.engine.Returns) :
    advance r StepMode.stepOut.required run = (.ret,run.step.suspend) := by
  obtain ⟨named,onward⟩ := returns
  obtain ⟨i,here,opcode⟩ := Option.map_eq_some_iff.mp named
  have alive : run.engine.state.isTerminal = false := Engine.aliveBefore onward
  have goes : run.step.engine.state.isTerminal = false := onward
  have noCall : StepMode.stepOut.required.contains .call = false := by decide
  have asked : StepMode.stepOut.required.contains .ret = true := by decide
  simp [advance, alive, here, noCall, goes, asked, opcode]

-- A turn of the loop that does not leave the engine running has returned, or has come upon what stops
-- every command.
theorem outStopped (running : run.engine.state = .running)
    (stopped : (advance r StepMode.stepOut.required run).2.engine.state ≠ .running) :
    run.engine.Returns ∨
      (advance r StepMode.stepOut.required run).1 ≠ .ret ∧
        (run.engine.executeNext.state.isTerminal = true ∨
          (run.engine.executeNext.breakpoint? r).isSome = true) := by
  have cases := advanceCases r StepMode.stepOut.required run
  generalize advance r StepMode.stepOut.required run = out at cases stopped ⊢
  have other : StopReason.none ≠ .ret := by decide
  cases cases with
  | ended finished => simp [running, VmState.isTerminal] at finished
  | unwound | finished | passed => exact .inr ⟨other,.inl (stepEnded running stopped)⟩
  | entered _ i here asked => exact absurd (@callsAsked .stepOut _ ⟨i,here,asked⟩) (by decide)
  | returned _ i here _ onward asked =>
    have opcode : i.opcode = .RET := of_decide_eq_true (Bool.and_eq_true_iff.mp asked).2
    exact .inl ⟨by rw [here, Option.map_some, opcode],onward⟩
  | stopped _ _ _ _ _ _ reason holds =>
    have noLine : StepMode.stepOut.required.contains .sourceLine = false := by decide
    rw [reasonHereAsked (by decide) (by decide), noLine, Bool.false_and,
      if_neg Bool.false_ne_true, Option.or_none] at holds
    refine .inr ⟨fun (named : reason = .ret) => ?_,
      .inr (by rw [show run.engine.executeNext = run.step.engine from rfl, holds]; rfl)⟩
    rcases Engine.breakpointKind holds with rfl | rfl <;> exact absurd named (by decide)

theorem outArrives {count n : Nat} {last : Run} (turn : LastTurn r .stepOut run count last)
    (returns : (executeNext^[n] run.engine).Returns)
    (quiet : ∀ k < n, ¬ (executeNext^[k] run.engine).Returns ∧
      (executeNext^[k + 1] run.engine).breakpoint? r = none) : n = count := by
  apply Nat.le_antisymm
  · by_contra later
    obtain ⟨free,unmarked⟩ := quiet count (Nat.not_le.mp later)
    have next : executeNext^[count + 1] run.engine = last.engine.executeNext := by
      rw [turn.stands]
      exact Function.iterate_succ_apply' _ count _
    have alive : (executeNext^[count + 1] run.engine).state.isTerminal = false :=
      Engine.aliveEarlier (Nat.not_le.mp later) (Engine.aliveBefore returns.2)
    rw [next] at unmarked alive
    rw [← turn.stands] at free
    rcases outStopped turn.running turn.stopped with returned | ⟨_,finished | found⟩
    · exact free returned
    · exact Bool.eq_false_iff.mp alive finished
    · rw [unmarked] at found
      contradiction
  · by_contra early
    obtain ⟨other,same,_,onward⟩ := turn.onward n (Nat.not_le.mp early)
    rw [advanceReturns (same ▸ returns)] at onward
    contradiction

-- Told of any run: one that has ended is refused. Which of the frames executes the RET is not looked
-- at: it may be one above the frame the step began in.
theorem stepOutReturns (r : Registry) (run : Run) :
    let e (n : Nat) := executeNext^[n] run.engine.awake
    let depth := run.engine.frames.length
    match resume r .stepOut run with
    | .error _ => run.engine.state.isTerminal = true
    | .ok (reason,next) =>
      (reason = .ret → ∃ n, Leads (n + 1) run.engine next.engine ∧
        (next.engine.frames.length < depth ∨
          (e n).Returns ∧ next.engine.frames.length + 1 = (e n).frames.length ∧
            depth < (e n).frames.length)) ∧
      ∀ n, (e n).Returns →
        (∀ k < n, ¬ (e k).Returns ∧ (e (k + 1)).breakpoint? r = none) →
        reason = .ret ∧ next.engine.state = .suspended ∧ Leads (n + 1) run.engine next.engine ∧
          ∃ f caller below, (e n).frames = f :: caller :: below ∧
            next.engine.frames = f.returnTo caller :: below := by
  intro e depth
  cases ended : run.engine.state.isTerminal with
  | true => rw [resumeOfTerminal r .stepOut ended]
  | false =>
    rw [resumeOfAlive r .stepOut ended]
    obtain ⟨count,last,turn⟩ :=
      @lastTurn r .stepOut { run with engine := run.engine.awake } (Engine.awakeRunning ended)
    have out : resumeAs r .stepOut { run with engine := run.engine.awake } =
        advance r StepMode.stepOut.required last := turn.out
    have stands : last.engine = e count := turn.stands
    have leaves (returns : last.engine.Returns) :
        Leads (count + 1) run.engine last.step.suspend.engine := by
      have alive : last.engine.state.isTerminal = false := by rw [turn.running]; rfl
      exact Engine.leadsFromAwake
        (leadsSuspend (leadsThen turn.leads (leadsStep alive)) returns.2)
    have stopped := outStopped turn.running turn.stopped
    have returned := @advanceReturns r last
    rw [out]
    generalize advance r StepMode.stepOut.required last = out at stopped returned ⊢
    obtain ⟨reason,next⟩ := out
    refine ⟨fun named => ?_,fun n returns quiet => ?_⟩
    · have returns : last.engine.Returns := stopped.resolve_right fun other => other.1 named
      cases returned returns
      obtain ⟨f,caller,below,before,after⟩ := Engine.returnResumes returns
      have now : last.step.suspend.engine.frames.length = below.length + 1 :=
        congrArg List.length after
      refine ⟨count,leaves returns,?_⟩
      rw [now, ← stands, before, List.length_cons, List.length_cons]
      by_cases lower : below.length + 1 < depth
      · exact .inl lower
      · exact .inr ⟨returns,rfl,by omega⟩
    · obtain rfl : n = count := outArrives turn returns quiet
      rw [← stands] at returns ⊢
      cases returned returns
      exact ⟨rfl,rfl,leaves returns,Engine.returnResumes returns⟩

-- Steps out of the routine at 3, without breakpoints. In the first script it calls the one at 6, whose
-- RET ends the step in the routine itself. In the second it runs past the end, and the step goes on from
-- the caller to the end of the run.
theorem stepOutStaysInside :
    let run (script : Bytes) : Run :=
      ⟨{ frames :=
          [{ contract := .zero, script, position := 3, entry := .internal },
            { contract := .zero, script, position := 2, entry := .script }]
         gasLimit := 10, ledger := .empty },∅⟩
    let calls := run [0x34,3,0x40,0x34,3,0x40,0x40]
    let past := run [0x34,3,0x40,0x21]
    (∃ next, resume {} .stepOut calls = .ok (.ret,next) ∧
      ¬ next.engine.frames.length < calls.engine.frames.length) ∧
    (executeNext^[2] past.engine).state = .running ∧
    (executeNext^[2] past.engine).frames.length + 1 = past.engine.frames.length ∧
    ∃ next, resume {} .stepOut past = .ok (.none,next) ∧ next.engine.state = .halted := by
  intro run calls past
  have resumed (script : Bytes) :
      resume {} .stepOut (run script) = .ok (resumeAs {} .stepOut (run script)) := rfl
  have inside : (resumeAs {} .stepOut calls).1 = .ret ∧
      ¬ (resumeAs {} .stepOut calls).2.engine.frames.length < calls.engine.frames.length := by
    decide +kernel
  have onward : (resumeAs {} .stepOut past).1 = .none ∧
      (resumeAs {} .stepOut past).2.engine.state = .halted := by
    decide +kernel
  refine ⟨⟨_,?_,inside.2⟩,by decide +kernel,by decide +kernel,_,?_,onward.2⟩
  · rw [resumed, ← inside.1]
  · rw [resumed, ← onward.1]

end Run

end ScriptDebugger
