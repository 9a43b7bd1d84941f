import ScriptDebugger.Proofs.Machine.Soundness

/-! How many instructions lie between two engines. Each lowers the rank, so the number is unique and
bounded; on a sound engine each costs one unit of gas, so the gas is the number and never passes the
limit by more than the instruction that ran out of it. -/
namespace ScriptDebugger.Engine

-- `n` instructions lead from the one to the other, none of them taken by an engine that has ended.
structure Leads (n : Nat) (e after : Engine) : Prop where
  reached : after.awake = executeNext^[n] e.awake
  alive : ∀ k < n, (executeNext^[k] e.awake).state.isTerminal = false

theorem rankIterate {e : Engine} {n : Nat}
    (alive : ∀ k < n, (executeNext^[k] e).state.isTerminal = false) :
    (executeNext^[n] e).rank + n ≤ e.rank := by
  induction n with
  | zero => exact Nat.le_refl _
  | succ n ih =>
    have before := ih fun k below => alive k (Nat.lt_succ_of_lt below)
    have lower := rankDecreases (alive n (Nat.lt_succ_self n))
    rw [Function.iterate_succ_apply']
    omega

theorem leadsNone {e after : Engine} (same : after.awake = e.awake) : Leads 0 e after :=
  ⟨same,fun k below => absurd below (Nat.not_lt_zero k)⟩

theorem leadsThen {m n : Nat} {e between after : Engine} (first : Leads m e between)
    (second : Leads n between after) : Leads (m + n) e after := by
  refine ⟨?_,fun k below => ?_⟩
  · rw [second.reached, first.reached, ← Function.iterate_add_apply, Nat.add_comm]
  · by_cases early : k < m
    · exact first.alive k early
    · obtain ⟨more,rfl⟩ := Nat.exists_eq_add_of_le' (Nat.not_lt.mp early)
      rw [Function.iterate_add_apply, ← first.reached]
      exact second.alive more (by omega)

theorem leadsRank {n : Nat} {e after : Engine} (leads : Leads n e after) :
    after.rank + n ≤ e.rank := by
  have bound := rankIterate leads.alive
  rwa [← leads.reached, rankAwake, rankAwake] at bound

theorem leadsOnce {m n : Nat} {e after : Engine} (one : Leads m e after) (two : Leads n e after) :
    m = n := by
  have never : ∀ {a b : Nat}, Leads a e after → Leads b e after → ¬ a < b := by
    intro a b short long less
    obtain ⟨more,rfl⟩ := Nat.exists_eq_add_of_lt less
    have onward : Leads (more + 1) after after := by
      refine ⟨?_,fun k below => ?_⟩
      · rw [short.reached, ← Function.iterate_add_apply, ← short.reached, long.reached]
        congr 1
        omega
      · rw [short.reached, ← Function.iterate_add_apply]
        exact long.alive (k + a) (by omega)
    have bound := leadsRank onward
    omega
  exact Nat.le_antisymm (Nat.not_lt.mp (never two one)) (Nat.not_lt.mp (never one two))

theorem leadsStep {e : Engine} (alive : e.state.isTerminal = false) : Leads 1 e e.executeNext := by
  refine ⟨awakeExecuteNext e,fun k below => ?_⟩
  obtain rfl : k = 0 := Nat.lt_one_iff.mp below
  exact (awakeTerminal e).trans alive

-- Instructions after the end change nothing and are not counted.
theorem leadsWithin (e : Engine) (n : Nat) : ∃ m ≤ n, Leads m e (executeNext^[n] e.awake) := by
  induction n with
  | zero => exact ⟨0,Nat.le_refl _,leadsNone (awakeAwake e)⟩
  | succ n ih =>
    obtain ⟨m,less,leads⟩ := ih
    rw [Function.iterate_succ_apply']
    cases ended : (executeNext^[n] e.awake).state.isTerminal with
    | true =>
      rw [executeNextOfTerminal ended]
      exact ⟨m,Nat.le_succ_of_le less,leads⟩
    | false => exact ⟨m + 1,Nat.succ_le_succ less,leadsThen leads (leadsStep ended)⟩

theorem leadsSame {n : Nat} {e before after : Engine} (leads : Leads n e before)
    (same : after.awake = before.awake) : Leads n e after := ⟨same.trans leads.reached,leads.alive⟩

theorem leadsFromAwake {n : Nat} {e after : Engine} (leads : Leads n e.awake after) :
    Leads n e after := by
  obtain ⟨reached,alive⟩ := leads
  rw [awakeAwake] at reached alive
  exact ⟨reached,alive⟩

theorem leadsReached {n : Nat} {e after : Engine} (reached : after.awake = executeNext^[n] e.awake) :
    ∃ m ≤ n, Leads m e after := by
  obtain ⟨m,less,leads⟩ := leadsWithin e n
  refine ⟨m,less,leadsSame leads ?_⟩
  rw [← reached, awakeAwake]

theorem leadsSound {n : Nat} {e after : Engine} (sound : e.Sound) (leads : Leads n e after) :
    after.Sound := by
  rw [← soundAwake, leads.reached]
  exact soundIterate ((soundAwake e).mpr sound) n

theorem awakeGas (e : Engine) : e.awake.gas = e.gas ∧ e.awake.gasLimit = e.gasLimit := by
  unfold awake
  split <;> exact ⟨rfl,rfl⟩

theorem applyCharged (e : Engine) (f : Frame) (rest : List Frame) (effect : Effect) :
    (e.payGas.apply f rest effect).gas = e.gas + 1 ∧
      (e.payGas.apply f rest effect).gasLimit = e.gasLimit :=
  applyGas e.payGas f rest effect

-- One unit of gas for each instruction, whatever comes of it.
theorem executeNextCharged {e : Engine} (sound : e.Sound) (alive : e.state.isTerminal = false) :
    e.executeNext.gas = e.gas + 1 ∧ e.executeNext.gasLimit = e.gasLimit := by
  have outcome := executeNextOutcome e
  generalize e.executeNext = next at outcome ⊢
  cases outcome with
  | ended finished => simp [alive] at finished
  | bare _ none => exact absurd none (soundFramed sound alive)
  | faulted _ shape kin fault => exact ⟨rfl,rfl⟩
  | applied _ shape kin paid lawful => exact applyCharged e _ _ _

theorem iterateCharged {e : Engine} {n : Nat} (sound : e.Sound)
    (alive : ∀ k < n, (executeNext^[k] e).state.isTerminal = false) :
    (executeNext^[n] e).gas = e.gas + n ∧ (executeNext^[n] e).gasLimit = e.gasLimit := by
  induction n with
  | zero => exact ⟨rfl,rfl⟩
  | succ n ih =>
    have before := ih fun k below => alive k (Nat.lt_succ_of_lt below)
    have last := executeNextCharged (soundIterate sound n) (alive n (Nat.lt_succ_self n))
    rw [Function.iterate_succ_apply']
    exact ⟨by rw [last.1, before.1, Nat.add_assoc],last.2.trans before.2⟩

theorem leadsCharged {n : Nat} {e after : Engine} (sound : e.Sound) (leads : Leads n e after) :
    after.gas = e.gas + n ∧ after.gasLimit = e.gasLimit := by
  have charged := iterateCharged ((soundAwake e).mpr sound) leads.alive
  rw [← leads.reached] at charged
  simpa only [awakeGas] using charged

structure Metered (e : Engine) : Prop where
  bounded : (e.gas : Int) ≤ max e.gasLimit 0 + 1
  spent : max e.gasLimit 0 < e.gas → e.state = .faulted
  paid : e.state = .halted → (e.gas : Int) ≤ e.gasLimit

theorem meteredLoaded (ledger : Snapshot) (timestamp : Option Nat) (signers : List Signer)
    (gasLimit : Int) (surroundings : Surroundings) (script : Bytes) :
    ((create ledger timestamp signers gasLimit surroundings).loadScript script).Metered := by
  refine ⟨?_,fun beyond => ?_,fun halted => ?_⟩
  · simp only [loadScript, create]
    omega
  · simp only [loadScript, create] at beyond
    omega
  · contradiction

theorem meteredExecuteNext {e : Engine} (sound : e.Sound) (metered : e.Metered) :
    e.executeNext.Metered := by
  have outcome := executeNextOutcome e
  generalize e.executeNext = next at outcome ⊢
  have within (alive : e.state.isTerminal = false) : (e.gas : Int) ≤ max e.gasLimit 0 := by
    by_contra beyond
    have faulted := metered.spent (Int.not_le.mp beyond)
    simp [faulted, VmState.isTerminal] at alive
  cases outcome with
  | ended finished => exact metered
  | bare alive none => exact absurd none (soundFramed sound alive)
  | faulted alive shape kin fault =>
    have before := within alive
    refine ⟨?_,fun _ => rfl,fun wrong => ?_⟩
    · simp only [failWith, payGas]
      omega
    · contradiction
  | @applied alive f g rest shape kin paid effect lawful =>
    obtain ⟨gas,limit⟩ := applyCharged e g rest effect
    refine ⟨?_,fun beyond => ?_,fun _ => ?_⟩
    · rw [gas, limit]
      omega
    · rw [gas, limit] at beyond
      omega
    · rw [gas, limit]
      omega

theorem meteredAwake (e : Engine) : e.awake.Metered ↔ e.Metered := by
  have ends (state : VmState) (ended : state.isTerminal = true) :
      e.awake.state = state ↔ e.state = state := by
    unfold awake
    split
    · next paused => cases state <;> simp_all [setState, VmState.isTerminal]
    · rfl
  have faulted := ends .faulted rfl
  have halted := ends .halted rfl
  have gas := awakeGas e
  constructor
  · rintro ⟨bounded,spent,paid⟩
    rw [gas.1, gas.2] at bounded spent paid
    exact ⟨bounded,fun beyond => faulted.mp (spent beyond),fun ended => paid (halted.mpr ended)⟩
  · rintro ⟨bounded,spent,paid⟩
    rw [← gas.1, ← gas.2] at bounded spent paid
    exact ⟨bounded,fun beyond => faulted.mpr (spent beyond),fun ended => paid (halted.mp ended)⟩

theorem leadsMetered {n : Nat} {e after : Engine} (sound : e.Sound) (metered : e.Metered)
    (leads : Leads n e after) : after.Metered := by
  have onward (k : Nat) : (executeNext^[k] e.awake).Metered := by
    induction k with
    | zero => exact (meteredAwake e).mpr metered
    | succ k ih =>
      rw [Function.iterate_succ_apply']
      exact meteredExecuteNext (soundIterate ((soundAwake e).mpr sound) k) ih
  rw [← meteredAwake, leads.reached]
  exact onward n

end ScriptDebugger.Engine
