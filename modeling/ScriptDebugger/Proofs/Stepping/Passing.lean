import ScriptDebugger.Proofs.Stepping.Operations
import ScriptDebugger.Proofs.Stepping.StepOver

/-! What the commands run past. All of them look for breakpoints after every instruction, so none
goes further than Continue, but for one: a step into calls does not look where a call arrives, and
goes on, behind the prologue of the routine if it has one. -/
namespace ScriptDebugger

namespace Engine

-- A call, and calls are asked for.
def Calls (required : StopReason) (e : Engine) : Prop :=
  ∃ i, e.next? = some i ∧ (required.contains .call && i.isCall) = true

-- The instruction this engine stands at is the last one: it ends the run, or it arrives at a
-- breakpoint and is not stepped into.
def Stops (r : Registry) (required : StopReason) (e : Engine) : Prop :=
  e.executeNext.state.isTerminal = true ∨
    e.next?.isSome = true ∧ (e.executeNext.breakpoint? r).isSome = true ∧ ¬ e.Calls required

end Engine

namespace Run

open Engine (Leads Stops Calls leadsStep leadsThen leadsSame executeNext)

variable {r : Registry} {mode : StepMode} {run : Run}

theorem breakpointAsked (mode : StepMode) {e : Engine}
    (found : (e.breakpoint? r).isSome = true) :
    (reasonHere r mode.required e).isSome = true := by
  have assembly : mode.required.contains .assemblyBreakpoint = true := by cases mode <;> decide
  have source : mode.required.contains .sourceBreakpoint = true := by cases mode <;> decide
  rw [reasonHereAsked assembly source, Option.isSome_or, found, Bool.true_or]

theorem callsAsked {e : Engine} (calls : e.Calls mode.required) : mode = .stepInto := by
  obtain ⟨i,_,asked⟩ := calls
  have contained := (Bool.and_eq_true_iff.mp asked).1
  cases mode with
  | stepInto => rfl
  | _ => exact absurd contained (by decide)

theorem leadsSuspend {n : Nat} {e : Engine} (leads : Leads n e run.engine)
    (alive : run.engine.state.isTerminal = false) : Leads n e run.suspend.engine :=
  leadsSame leads (Engine.awakeSetState alive rfl)

theorem stopsAlive {required : StopReason} (goes : run.step.engine.state.isTerminal = false)
    (stops : run.engine.Stops r required) :
    run.engine.next?.isSome = true ∧ (run.step.engine.breakpoint? r).isSome = true ∧
      ¬ run.engine.Calls required :=
  stops.resolve_left (Bool.eq_false_iff.mp goes)

-- A logical step that leaves the engine running is one instruction, and not the last.
theorem advanceOnward (running : run.engine.state = .running)
    (onward : (advance r mode.required run).2.engine.state = .running) :
    (advance r mode.required run).2 = run.step ∧ ¬ run.engine.Stops r mode.required := by
  have goes : (advance r mode.required run).2.engine.state.isTerminal = false := by
    rw [onward]
    rfl
  have cases := advanceCases r mode.required run
  generalize advance r mode.required run = out at cases onward goes ⊢
  cases cases with
  | ended finished => simp [running, VmState.isTerminal] at finished
  | unwound _ past =>
    refine ⟨rfl,fun stops => ?_⟩
    have here := (stopsAlive goes stops).1
    simp [past] at here
  | entered _ i here asked =>
    have inner := enterCallCases run
    generalize run.enterCall = out at inner onward goes ⊢
    cases inner with
    | finished ended | failed _ _ ended => exact absurd ended (Bool.eq_false_iff.mp goes)
    | bare => exact ⟨rfl,fun stops => (stopsAlive goes stops).2.2 ⟨i,here,asked⟩⟩
    | ready => contradiction
  | finished _ _ _ _ ended => exact absurd ended (Bool.eq_false_iff.mp goes)
  | returned | stopped => contradiction
  | passed _ _ _ _ _ _ free =>
    refine ⟨rfl,fun stops => ?_⟩
    have holds := breakpointAsked mode (stopsAlive goes stops).2.1
    simp [free] at holds

theorem advanceLeads (alive : run.engine.state.isTerminal = false) :
    ∃ n, Leads n run.engine (advance r mode.required run).2.engine ∧ n ≤ 2 ∧
      (¬ (run.engine.Calls mode.required ∧ run.step.engine.state.isTerminal = false) → n = 1) := by
  have first : Leads 1 run.engine run.step.engine := leadsStep alive
  have cases := advanceCases r mode.required run
  generalize advance r mode.required run = out at cases ⊢
  cases cases with
  | ended finished => simp [alive] at finished
  | unwound => exact ⟨1,first,Nat.le_succ 1,fun _ => rfl⟩
  | entered _ i here asked =>
    have inner := enterCallCases run
    generalize run.enterCall = out at inner ⊢
    cases inner with
    | finished | bare => exact ⟨1,first,Nat.le_succ 1,fun _ => rfl⟩
    | failed runs =>
      exact ⟨2,leadsThen first (leadsStep runs),Nat.le_refl 2,
        fun plain => absurd ⟨⟨i,here,asked⟩,runs⟩ plain⟩
    | ready runs _ opened =>
      exact ⟨2,leadsSuspend (leadsThen first (leadsStep runs)) opened,Nat.le_refl 2,
        fun plain => absurd ⟨⟨i,here,asked⟩,runs⟩ plain⟩
  | finished | passed => exact ⟨1,first,Nat.le_succ 1,fun _ => rfl⟩
  | returned _ _ _ _ runs | stopped _ _ _ _ runs =>
    exact ⟨1,leadsSuspend first runs,Nat.le_succ 1,fun _ => rfl⟩

theorem advanceStops (running : run.engine.state = .running)
    (stops : run.engine.Stops r mode.required) :
    Leads 1 run.engine (advance r mode.required run).2.engine := by
  obtain ⟨n,leads,_,once⟩ := @advanceLeads r mode run (by rw [running]; rfl)
  obtain rfl : n = 1 := by
    refine once fun entered => ?_
    exact (stopsAlive entered.2 stops).2.2 entered.1
  exact leads

-- The loop by its turns: `count` of them go on, one instruction each, and the one from `last` does
-- not.
structure LastTurn (r : Registry) (mode : StepMode) (run : Run) (count : Nat) (last : Run) :
    Prop where
  out : runUntil r mode.required run = advance r mode.required last
  stopped : (advance r mode.required last).2.engine.state ≠ .running
  running : last.engine.state = .running
  stands : last.engine = executeNext^[count] run.engine
  leads : Leads count run.engine last.engine
  onward (k : Nat) (before : k < count) : ∃ turn : Run,
    turn.engine = executeNext^[k] run.engine ∧ turn.engine.state = .running ∧
      (advance r mode.required turn).2.engine.state = .running

theorem lastTurn (running : run.engine.state = .running) :
    ∃ count last, LastTurn r mode run count last := by
  fun_induction runUntil r mode.required run with
  | case1 run reason next advanced onward ih =>
    have goes := @advanceOnward r mode run running
    rw [advanced] at goes
    obtain ⟨rfl,_⟩ := goes onward
    obtain ⟨count,last,turn⟩ := ih onward
    have first : Leads 1 run.engine run.step.engine := leadsStep (by rw [running]; rfl)
    refine ⟨count + 1,last,?_,turn.stopped,turn.running,turn.stands,
      Nat.add_comm 1 count ▸ leadsThen first turn.leads,fun k before => ?_⟩
    · rw [runUntilOnce, advanced, if_pos onward]
      exact turn.out
    · cases k with
      | zero => exact ⟨run,rfl,running,by rw [advanced]; exact onward⟩
      | succ k => exact turn.onward k (Nat.lt_of_succ_lt_succ before)
  | case2 run reason next advanced stopped =>
    refine ⟨0,run,?_,by rwa [advanced],running,rfl,Engine.leadsNone rfl,
      fun k before => absurd before (Nat.not_lt_zero k)⟩
    rw [runUntilOnce, advanced, if_neg stopped]

theorem lastTurnAfter {count k : Nat} {last : Run} (turn : LastTurn r mode run count last)
    (stops : (executeNext^[k] run.engine).Stops r mode.required) : count ≤ k := by
  by_contra early
  obtain ⟨before,same,running,onward⟩ := turn.onward k (Nat.not_le.mp early)
  exact (advanceOnward running onward).2 (same ▸ stops)

theorem runUntilWithin (running : run.engine.state = .running) {k : Nat}
    (stops : (executeNext^[k] run.engine).Stops r mode.required) :
    ∃ n ≤ k + 1, Leads n run.engine (runUntil r mode.required run).2.engine := by
  obtain ⟨count,last,turn⟩ := @lastTurn r mode run running
  rw [turn.out]
  rcases Nat.lt_or_eq_of_le (lastTurnAfter turn stops) with later | rfl
  · obtain ⟨n,leads,most,_⟩ := @advanceLeads r mode last (by rw [turn.running]; rfl)
    exact ⟨count + n,by omega,leadsThen turn.leads leads⟩
  · have leads := @advanceStops r mode last turn.running (turn.stands ▸ stops)
    exact ⟨count + 1,Nat.le_refl _,leadsThen turn.leads leads⟩

theorem stepOverWithin (start : Nat × Option ContractHash) (running : run.engine.state = .running)
    {k : Nat} (stops : (executeNext^[k] run.engine).Stops r StepMode.stepOverSource.required) :
    ∃ n ≤ k + 1, Leads n run.engine (stepOver r start run).2.engine := by
  obtain ⟨m,_,before,reached,_⟩ := overEnd r start running
  have ends : (executeNext^[k] run.engine).OverEnds r start := by
    rcases stops with ended | ⟨here,found,_⟩
    · exact .inl ended
    · exact .inr ⟨here,by rw [Engine.overReason?, Option.isSome_or, found, Bool.true_or]⟩
  have early : m ≤ k := Nat.not_lt.mp fun later => before k later ends
  rw [← Engine.awakeOfRunning running] at reached
  obtain ⟨n,less,leads⟩ := Engine.leadsReached reached
  exact ⟨n,by omega,leads⟩

theorem resumeAsWithin (running : run.engine.state = .running) {k : Nat}
    (stops : (executeNext^[k] run.engine).Stops r mode.required) :
    ∃ n ≤ k + 1, Leads n run.engine (resumeAs r mode run).2.engine := by
  have untilStop := runUntilWithin running stops
  cases mode with
  | resume | stepInto | stepOut => exact untilStop
  | stepOverSource => exact stepOverWithin (place run.engine) running stops
  | stepOverAssembly =>
    obtain ⟨n,leads,_,once⟩ := @advanceLeads r .stepOverAssembly run (by rw [running]; rfl)
    refine ⟨n,?_,?_⟩
    · rw [once fun entered => absurd (callsAsked entered.1) (by decide)]
      exact Nat.le_add_left 1 k
    · unfold resumeAs
      dsimp only
      split
      · next going => exact leadsSuspend leads (by rw [going]; rfl)
      · exact leads

theorem continueStopped (running : run.engine.state = .running)
    (stopped : (advance r StepMode.resume.required run).2.engine.state ≠ .running) :
    run.engine.Stops r StepMode.resume.required := by
  have cases := advanceCases r StepMode.resume.required run
  generalize advance r StepMode.resume.required run = out at cases stopped
  cases cases with
  | ended finished => simp [running, VmState.isTerminal] at finished
  | unwound | finished | passed => exact .inl (stepEnded running stopped)
  | entered _ i here asked => exact absurd (@callsAsked .resume _ ⟨i,here,asked⟩) (by decide)
  | returned _ _ _ _ _ asked =>
    rw [show StepMode.resume.required.contains .ret = false by decide] at asked
    contradiction
  | stopped _ i here _ _ _ reason holds =>
    rw [show StepMode.resume.required = .breakpoint from rfl, reasonHereBreakpoint] at holds
    refine .inr ⟨by rw [here]; rfl,?_,fun calls => absurd (callsAsked calls) (by decide)⟩
    rw [show run.engine.executeNext = run.step.engine from rfl, holds]
    rfl

theorem continueEnds (running : run.engine.state = .running) :
    ∃ k, Leads (k + 1) run.engine (runUntil r StepMode.resume.required run).2.engine ∧
      (executeNext^[k] run.engine).Stops r StepMode.resume.required := by
  obtain ⟨count,last,turn⟩ := @lastTurn r .resume run running
  have stops := continueStopped turn.running turn.stopped
  have leads := @advanceStops r .resume last turn.running stops
  exact ⟨count,turn.out ▸ leadsThen turn.leads leads,turn.stands ▸ stops⟩

theorem advanceOpens {required : StopReason} (calls : run.engine.Calls required)
    (alive : run.step.engine.state.isTerminal = false)
    (opens : run.step.engine.next?.map Instruction.opcode = some .INITSLOT) :
    (advance r required run).2.engine.state ≠ .running ∧
      ((advance r required run).1 = .call ∨
        (advance r required run).2.engine.state.isTerminal = true) := by
  obtain ⟨i,here,asked⟩ := calls
  have on : run.engine.state.isTerminal = false := Engine.aliveBefore alive
  unfold advance
  rw [if_neg (Bool.eq_false_iff.mp on), here]
  dsimp only
  rw [if_pos asked]
  have cases := enterCallCases run
  generalize run.enterCall = out at cases ⊢
  cases cases with
  | finished ended => exact absurd ended (Bool.eq_false_iff.mp alive)
  | bare _ bare => exact absurd opens bare
  | failed _ _ ended =>
    refine ⟨fun going => ?_,.inr ended⟩
    rw [going] at ended
    contradiction
  | ready => exact ⟨nofun,.inl rfl⟩

-- Where a call arrives at a prologue, a step into calls ends behind it at the latest.
theorem stepIntoOpens (running : run.engine.state = .running) {k : Nat}
    (calls : (executeNext^[k] run.engine).Calls StepMode.stepInto.required)
    (alive : (executeNext^[k + 1] run.engine).state.isTerminal = false)
    (opens : (executeNext^[k + 1] run.engine).next?.map Instruction.opcode = some .INITSLOT) :
    ∃ n, Leads n run.engine (runUntil r StepMode.stepInto.required run).2.engine ∧
      (n ≤ k + 1 ∨ n = k + 2 ∧ ((runUntil r StepMode.stepInto.required run).1 = .call ∨
        (runUntil r StepMode.stepInto.required run).2.engine.state.isTerminal = true)) := by
  obtain ⟨count,last,turn⟩ := @lastTurn r .stepInto run running
  have opened {caller : Run} (same : caller.engine = executeNext^[k] run.engine) :
      (advance r StepMode.stepInto.required caller).2.engine.state ≠ .running ∧
        ((advance r StepMode.stepInto.required caller).1 = .call ∨
          (advance r StepMode.stepInto.required caller).2.engine.state.isTerminal = true) := by
    have after : caller.step.engine = executeNext^[k + 1] run.engine := by
      rw [Function.iterate_succ_apply', ← same]
      rfl
    exact @advanceOpens r caller _ (same ▸ calls) (after ▸ alive) (after ▸ opens)
  have late : count ≤ k := by
    by_contra early
    obtain ⟨before,same,_,onward⟩ := turn.onward k (Nat.not_le.mp early)
    exact (opened same).1 onward
  obtain ⟨n,leads,most,_⟩ := @advanceLeads r .stepInto last (by rw [turn.running]; rfl)
  rw [turn.out]
  refine ⟨count + n,leadsThen turn.leads leads,?_⟩
  by_cases early : count + n ≤ k + 1
  · exact .inl early
  · obtain rfl : count = k := by omega
    exact .inr ⟨by omega,(opened turn.stands).2⟩

-- Where Continue ends, the other commands have ended, unless calls are stepped into and the last
-- instruction of Continue is one.
theorem furtherOnlyInto (r : Registry) (mode : StepMode) (running : run.engine.state = .running) :
    let e (k : Nat) := executeNext^[k] run.engine
    let (reason,stepped) := resumeAs r mode run
    ∃ n m, Leads n run.engine (resumeAs r .resume run).2.engine ∧
      Leads m run.engine stepped.engine ∧
      (∀ k, (e k).Stops r mode.required → m ≤ k + 1) ∧
      (m ≤ n ∨ mode = .stepInto ∧ ∃ k, n = k + 1 ∧ (e k).Calls mode.required ∧
        (e n).state.isTerminal = false ∧ ((e n).breakpoint? r).isSome = true ∧
        ((e n).next?.map Instruction.opcode = some .INITSLOT →
          m = n + 1 ∧ (reason = .call ∨ stepped.engine.state.isTerminal = true))) := by
  intro e
  obtain ⟨last,first,stops⟩ := @continueEnds r run running
  obtain ⟨m,leads⟩ := resumeAsLeads r mode run
  have within (k : Nat) (stops : (e k).Stops r mode.required) : m ≤ k + 1 := by
    obtain ⟨n,less,same⟩ := resumeAsWithin running stops
    exact Engine.leadsOnce leads same ▸ less
  refine ⟨last + 1,m,first,leads,within,?_⟩
  by_cases early : m ≤ last + 1
  · exact .inl early
  have further : ¬ (e last).Stops r mode.required := fun stops => early (within last stops)
  rcases stops with finished | ⟨here,found,_⟩
  · exact absurd (.inl finished) further
  have calls : (e last).Calls mode.required := by
    by_contra plain
    exact further (.inr ⟨here,found,plain⟩)
  obtain rfl : mode = .stepInto := callsAsked calls
  have onward : e (last + 1) = (e last).executeNext := Function.iterate_succ_apply' _ last _
  have alive : (e (last + 1)).state.isTerminal = false := by
    rw [onward]
    exact Bool.eq_false_iff.mpr fun finished => further (.inl finished)
  refine .inr ⟨rfl,last,rfl,calls,alive,onward ▸ found,fun opens => ?_⟩
  obtain ⟨n,same,most⟩ := @stepIntoOpens r run running last calls alive opens
  obtain rfl : m = n := Engine.leadsOnce leads same
  exact most.resolve_left early

-- Told of any run: one that has ended is refused by every command.
theorem neverFurther (r : Registry) (mode : StepMode) (run : Run) :
    let e (k : Nat) := executeNext^[k] run.engine.awake
    match resume r .resume run, resume r mode run with
    | .ok (_,continued), .ok (reason,stepped) =>
      ∃ n m, Leads n run.engine continued.engine ∧ Leads m run.engine stepped.engine ∧
        (∀ k, (e k).Stops r mode.required → m ≤ k + 1) ∧
        (m ≤ n ∨ mode = .stepInto ∧ ∃ k, n = k + 1 ∧ (e k).Calls mode.required ∧
          (e n).state.isTerminal = false ∧ ((e n).breakpoint? r).isSome = true ∧
          ((e n).next?.map Instruction.opcode = some .INITSLOT →
            m = n + 1 ∧ (reason = .call ∨ stepped.engine.state.isTerminal = true)))
    | .error _, .error _ => run.engine.state.isTerminal = true
    | _, _ => False := by
  intro e
  cases ended : run.engine.state.isTerminal with
  | true => rw [resumeOfTerminal r .resume ended, resumeOfTerminal r mode ended]
  | false =>
    rw [resumeOfAlive r .resume ended, resumeOfAlive r mode ended]
    obtain ⟨n,m,first,leads,rest⟩ :=
      @furtherOnlyInto { run with engine := run.engine.awake } r mode (Engine.awakeRunning ended)
    exact ⟨n,m,Engine.leadsFromAwake first,Engine.leadsFromAwake leads,rest⟩

def Further (r : Registry) (mode : StepMode) (run : Run) : Prop :=
  ∃ continued stepped : StopReason × Run,
    resume r .resume run = .ok continued ∧ resume r mode run = .ok stepped ∧
      ∀ n m, Leads n run.engine continued.2.engine → Leads m run.engine stepped.2.engine → n < m

theorem furtherByGas (running : run.engine.state = .running) (sound : run.engine.Sound)
    (more : (resumeAs r .resume run).2.engine.gas < (resumeAs r mode run).2.engine.gas) :
    Further r mode run := by
  have alive : run.engine.state.isTerminal = false := by rw [running]; rfl
  have resumed (mode : StepMode) : resume r mode run = .ok (resumeAs r mode run) := by
    rw [resumeOfAlive r mode alive, Engine.awakeOfRunning running]
  refine ⟨_,_,resumed .resume,resumed mode,fun n m first second => ?_⟩
  rw [(Engine.leadsCharged sound first).1, (Engine.leadsCharged sound second).1] at more
  exact Nat.add_lt_add_iff_left.mp more

-- A call at 0 of the routine at 3, which a breakpoint is on. One of the routines has a prologue, the
-- other one has none.
theorem stepIntoPassesBreakpoint :
    let contract : ContractHash := .zero
    let r : Registry := { breakpoints := (Breakpoints.addAssembly ∅ contract [3]).2 }
    let e (script : Bytes) : Engine :=
      { frames := [{ contract, script, entry := .script }], gasLimit := 10, ledger := .empty }
    Further r .stepInto ⟨e [0x34,3,0x40,0x57,1,0,0x40],∅⟩ ∧
      Further r .stepInto ⟨e [0x34,3,0x40,0x21,0x40],∅⟩ := by
  intro contract r e
  have sound (script : Bytes) : (e script).Sound := by
    refine Engine.soundOnward rfl (List.cons_ne_nil _ _) rfl (fun i entry found => ?_) rfl
    cases i with
    | zero => simpa [e] using found.symm
    | succ i => simp [e] at found
  refine ⟨furtherByGas rfl (sound _) ?_,furtherByGas rfl (sound _) ?_⟩
  · decide +kernel
  · decide +kernel

end Run

end ScriptDebugger
