import ScriptDebugger.Proofs.Machine.Packing
import ScriptDebugger.Proofs.Stepping.Course

/-! Everything that drives an engine: one instruction, plain execution, and the commands. Each comes
back, a command that is not refused after at least one instruction, and together they take as many
instructions as the engine has paid gas for. -/
namespace ScriptDebugger

namespace Run

theorem rankAdvanced (r : Registry) (required : StopReason) {run : Run}
    (alive : run.engine.state.isTerminal = false) :
    (advance r required run).2.engine.rank < run.engine.rank := by
  cases ended : (advance r required run).2.engine.state.isTerminal with
  | true =>
    rw [Engine.rankOfTerminal ended, Engine.rankOfAlive alive]
    exact Nat.succ_pos _
  | false => exact rankAdvance ended

theorem rankRanUntil (r : Registry) (required : StopReason) {run : Run}
    (alive : run.engine.state.isTerminal = false) :
    (runUntil r required run).2.engine.rank < run.engine.rank := by
  fun_induction runUntil r required run with
  | case1 run reason next advanced running ih =>
    have first := rankAdvanced r required alive
    rw [advanced] at first
    exact Nat.lt_trans (ih (by rw [running]; rfl)) first
  | case2 run reason next advanced stopped =>
    have first := rankAdvanced r required alive
    rwa [advanced] at first

theorem rankSteppedOver (r : Registry) (start : Nat × Option ContractHash) {run : Run}
    (alive : run.engine.state.isTerminal = false) :
    (stepOver r start run).2.engine.rank < run.engine.rank := by
  fun_induction stepOver r start run with
  | case1 run reason next advanced ended =>
    have first := rankAdvanced r StepMode.stepOverSource.required alive
    rwa [advanced] at first
  | case2 run reason next advanced on stop =>
    have first := rankAdvanced r StepMode.stepOverSource.required alive
    rwa [advanced] at first
  | case3 run reason next advanced on passed ih =>
    have first := rankAdvanced r StepMode.stepOverSource.required alive
    have same := @Engine.rankSetState _ .running (Bool.eq_false_iff.mpr on)
    rw [advanced] at first
    exact Nat.lt_trans (ih rfl) (same ▸ first)

theorem rankResumed (r : Registry) (mode : StepMode) {run : Run}
    (alive : run.engine.state.isTerminal = false) :
    (resumeAs r mode run).2.engine.rank < run.engine.rank := by
  have untilStop := rankRanUntil r mode.required alive
  cases mode with
  | resume | stepInto | stepOut => exact untilStop
  | stepOverSource => exact rankSteppedOver r (place run.engine) alive
  | stepOverAssembly =>
    have first := rankAdvanced r StepMode.stepOverAssembly.required alive
    unfold resumeAs
    dsimp only
    split
    · next running => rwa [rankSuspend (by rw [running]; rfl)]
    · exact first

theorem resumeAsLeads (r : Registry) (mode : StepMode) (run : Run) :
    ∃ n, Engine.Leads n run.engine (resumeAs r mode run).2.engine := by
  obtain ⟨n,reached⟩ := followsResumeAs r mode run
  obtain ⟨m,_,leads⟩ := Engine.leadsReached reached
  exact ⟨m,leads⟩

-- A command that is not refused takes an instruction at least.
theorem resumeLeads (r : Registry) (mode : StepMode) {run : Run}
    (alive : run.engine.state.isTerminal = false) :
    ∃ (reason : StopReason) (next : Run) (n : Nat), resume r mode run = .ok (reason,next) ∧
      Engine.Leads n run.engine next.engine ∧ 1 ≤ n := by
  have awake : run.engine.awake.state.isTerminal = false := (Engine.awakeTerminal _).trans alive
  have lower := @rankResumed r mode { run with engine := run.engine.awake } awake
  obtain ⟨n,leads⟩ := resumeAsLeads r mode { run with engine := run.engine.awake }
  have resumed := resumeOfAlive r mode alive
  generalize resumeAs r mode { run with engine := run.engine.awake } = out at lower leads resumed
  refine ⟨out.1,out.2,n,resumed,Engine.leadsFromAwake leads,?_⟩
  by_contra none
  obtain rfl : n = 0 := by omega
  have same := congrArg Engine.rank leads.reached
  rw [Function.iterate_zero, id, Engine.rankAwake, Engine.rankAwake] at same
  exact Nat.ne_of_lt lower same

end Run

namespace Engine

inductive Operation where
  | executeNext
  | execute
  | resume (r : Registry) (mode : StepMode)

def operate (e : Engine) : Operation → Engine
  | .executeNext => e.executeNext
  | .execute => e.execute
  | .resume r mode =>
    match Run.resume r mode ⟨e,r.coverage⟩ with
    | .ok (_,run) => run.engine
    | .error _ => e

def operated (e : Engine) (operations : List Operation) : Engine := operations.foldl operate e

theorem executeLeads (e : Engine) :
    (∃ n, Leads n e e.execute) ∧ e.execute.state.isTerminal = true := by
  obtain ⟨n,reached,ended⟩ := executeReaches e
  rw [← awakeOfTerminal ended] at reached
  obtain ⟨m,_,leads⟩ := leadsReached reached
  exact ⟨⟨m,leads⟩,ended⟩

theorem operateOfTerminal {e : Engine} (ended : e.state.isTerminal = true)
    (operation : Operation) : e.operate operation = e := by
  cases operation with
  | executeNext => exact executeNextOfTerminal ended
  | execute =>
    obtain ⟨n,reached,_⟩ := executeReaches e
    rw [awakeOfTerminal ended, iterateOfTerminal ended] at reached
    exact reached
  | resume r mode =>
    simp only [operate, @Run.resumeOfTerminal r mode ⟨e,r.coverage⟩ ended]

theorem operateLeads (e : Engine) (operation : Operation) :
    ∃ n, Leads n e (e.operate operation) := by
  cases ended : e.state.isTerminal with
  | true =>
    rw [operateOfTerminal ended]
    exact ⟨0,leadsNone rfl⟩
  | false =>
    cases operation with
    | executeNext => exact ⟨1,leadsStep ended⟩
    | execute => exact (executeLeads e).1
    | resume r mode =>
      obtain ⟨reason,next,n,resumed,leads,_⟩ := @Run.resumeLeads r mode ⟨e,r.coverage⟩ ended
      simp only [operate, resumed]
      exact ⟨n,leads⟩

theorem operatedLeads (e : Engine) (operations : List Operation) :
    ∃ n, Leads n e (e.operated operations) := by
  induction operations generalizing e with
  | nil => exact ⟨0,leadsNone rfl⟩
  | cons operation rest ih =>
    obtain ⟨m,first⟩ := operateLeads e operation
    obtain ⟨n,onward⟩ := ih (e.operate operation)
    exact ⟨m + n,leadsThen first onward⟩

theorem operatedSound {e : Engine} (sound : e.Sound) (operations : List Operation) :
    (e.operated operations).Sound := by
  obtain ⟨n,leads⟩ := operatedLeads e operations
  exact leadsSound sound leads

-- Told of an engine at any moment after its script was loaded. A call on it comes back unless the host
-- is cut off, and then its last instruction is a pack that is too large. Before the first instruction
-- nothing has been asked of the gas, so a negative limit is not noticed yet.
theorem runsEndWithinGas (ledger : Snapshot) (timestamp : Option Nat) (signers : List Signer)
    (gasLimit : Int) (surroundings : Surroundings) (script : Bytes)
    (operations : List Operation) :
    let start := (create ledger timestamp signers gasLimit surroundings).loadScript script
    let e := start.operated operations
    let most := max gasLimit 0 + 1
    (e.CutOff → start.Overpacked e.gas) ∧ Leads e.gas start e ∧ (e.gas : Int) ≤ most ∧
    (gasLimit < e.gas → e.state = .faulted ∨ e.gas = 0) ∧
    (e.state = .halted → (e.gas : Int) ≤ gasLimit) ∧
    (¬ e.CutOff →
      (∃ n : Nat, Leads n e e.execute ∧ (e.gas + n : Int) ≤ most ∧
        (¬ e.execute.CutOff ∧ e.execute.state.isTerminal = true ∨
          e.execute.CutOff ∧ e.Overpacked n)) ∧
      ∀ (r : Registry) (mode : StepMode) (coverage : Coverage),
        match Run.resume r mode ⟨e,coverage⟩ with
        | .error _ => e.state.isTerminal = true
        | .ok (_,next) =>
          ∃ n : Nat, Leads n e next.engine ∧ 1 ≤ n ∧ (e.gas + n : Int) ≤ most ∧
            (next.engine.CutOff → e.Overpacked n)) := by
  intro start e most
  have sound : start.Sound := soundLoaded ledger timestamp signers gasLimit surroundings script
  have metered : start.Metered :=
    meteredLoaded ledger timestamp signers gasLimit surroundings script
  obtain ⟨n,leads⟩ := operatedLeads start operations
  have onward : e.Sound := leadsSound sound leads
  have charged {n : Nat} {after : Engine} (leads : Leads n start after) :
      after.gas = n ∧ after.gasLimit = gasLimit := by
    obtain ⟨gas,limit⟩ := leadsCharged sound leads
    exact ⟨gas.trans (Nat.zero_add n),limit⟩
  have bounded {n : Nat} {after : Engine} (leads : Leads n start after) : (n : Int) ≤ most := by
    obtain ⟨gas,limit⟩ := charged leads
    have bound := (leadsMetered sound metered leads).bounded
    rwa [gas, limit] at bound
  have own : Leads e.gas start e := by rw [(charged leads).1]; exact leads
  have more {n : Nat} {after : Engine} (next : Leads n e after) : (e.gas + n : Int) ≤ most := by
    exact_mod_cast bounded (leadsThen own next)
  obtain ⟨_,spent,paid⟩ := leadsMetered sound metered leads
  rw [(charged leads).2] at spent paid
  have loaded : ¬ start.CutOff := uncutOff rfl
  refine ⟨leadsCutOff sound loaded own,own,bounded own,fun beyond => ?_,paid,
    fun there => ⟨?_,fun r mode coverage => ?_⟩⟩
  · by_cases spare : max gasLimit 0 < (e.gas : Int)
    · exact .inl (spent spare)
    · right
      omega
  · obtain ⟨⟨n,next⟩,ended⟩ := executeLeads e
    refine ⟨n,next,more next,?_⟩
    by_cases cut : e.execute.CutOff
    · exact .inr ⟨cut,leadsCutOff onward there next cut⟩
    · exact .inl ⟨cut,ended⟩
  · cases ended : e.state.isTerminal with
    | true =>
      rw [@Run.resumeOfTerminal r mode ⟨e,coverage⟩ ended]
    | false =>
      obtain ⟨reason,after,n,resumed,next,some⟩ := @Run.resumeLeads r mode ⟨e,coverage⟩ ended
      rw [resumed]
      exact ⟨n,next,some,more next,leadsCutOff onward there next⟩

-- A negative limit is below the gas of an engine that has not run yet. PACK of the greatest number of
-- eight bytes does not fault for want of items: the host is cut off before it looks for one.
theorem unspentOrCutOff :
    let idle := (create .empty none [] (-1)).loadScript [0x40]
    let packing := (create .empty none [] 10).loadScript
      [0x03,0xff,0xff,0xff,0xff,0xff,0xff,0xff,0x7f,0xc0]
    (idle.gasLimit < idle.gas ∧ idle.state ≠ .faulted) ∧ packing.execute.CutOff := by
  intro idle packing
  have ended : (executeNext^[2] packing.awake).state.isTerminal = true := by decide
  refine ⟨⟨by decide,by decide⟩,?_⟩
  rw [← executeIsEnd ended]
  exact ⟨Nat.pow 2 63 - 1,by decide⟩

end Engine

end ScriptDebugger
