import Mathlib.Logic.Function.Iterate
import ScriptDebugger.Machine.Engine

/-! Plain execution: the engines that one instruction after the other leads to. A suspension decides
nothing about what an instruction does, and an engine that has ended stays as it is, so an
execution has one end and `execute` reaches it. -/
namespace ScriptDebugger.Engine

-- The engine as it goes on: a suspension is lifted, nothing else is touched.
def awake (e : Engine) : Engine := if e.state = .suspended then e.setState .running else e

theorem awakeOfSuspended {e : Engine} (paused : e.state = .suspended) :
    e.awake = e.setState .running := if_pos paused

theorem awakeOfOther {e : Engine} (other : e.state ≠ .suspended) : e.awake = e := if_neg other

theorem awakeOfRunning {e : Engine} (running : e.state = .running) : e.awake = e :=
  awakeOfOther (by simp [running])

theorem awakeTerminal (e : Engine) : e.awake.state.isTerminal = e.state.isTerminal := by
  by_cases paused : e.state = .suspended
  · simp [awakeOfSuspended paused, setState, paused, VmState.isTerminal]
  · rw [awakeOfOther paused]

theorem awakeOfTerminal {e : Engine} (ended : e.state.isTerminal = true) : e.awake = e := by
  apply awakeOfOther
  intro paused
  simp [paused, VmState.isTerminal] at ended

theorem awakeAwake (e : Engine) : e.awake.awake = e.awake := by
  by_cases paused : e.state = .suspended
  · rw [awakeOfSuspended paused]
    exact awakeOfOther (by simp [setState])
  · simp only [awakeOfOther paused]

theorem awakeSetState {e : Engine} {state : VmState} (alive : e.state.isTerminal = false)
    (other : state.isTerminal = false) : (e.setState state).awake = e.awake := by
  have same : ∀ s : VmState, s.isTerminal = false → (e.setState s).awake = e.setState .running := by
    intro s hs
    cases s with
    | running => exact awakeOfOther (by simp [setState])
    | suspended => exact awakeOfSuspended rfl
    | halted | faulted => simp [VmState.isTerminal] at hs
  exact (same state other).trans (same e.state alive).symm

theorem framesAwake (e : Engine) : e.awake.frames = e.frames := by
  unfold awake
  split <;> rfl

theorem rankAwake (e : Engine) : e.awake.rank = e.rank := by
  unfold awake
  split
  · next paused => exact rankSetState (by rw [paused]; rfl)
  · rfl

theorem hostSetState (e : Engine) (state : VmState) : (e.setState state).host = e.host := rfl

theorem runFrameState (e : Engine) (f : Frame) (rest : List Frame) :
    (∀ state, (e.setState state).runFrame f rest = e.runFrame f rest ∧
      (e.runFrame f rest).state.isTerminal = true) ∨
    (∀ state, (e.setState state).runFrame f rest = (e.runFrame f rest).setState state ∧
      (e.runFrame f rest).state = e.state) := by
  have left : ∀ g : Frame,
      (∀ state, (e.setState state).leave g rest = e.leave g rest ∧
        (e.leave g rest).state.isTerminal = true) ∨
      (∀ state, (e.setState state).leave g rest = (e.leave g rest).setState state ∧
        (e.leave g rest).state = e.state) := by
    intro g
    cases rest with
    | nil => exact .inl fun state => ⟨rfl,rfl⟩
    | cons caller rest => exact .inr fun state => ⟨rfl,rfl⟩
  simp only [runFrame, hostSetState]
  cases f.fetched with
  | ended => exact left f
  | invalid => exact .inl fun state => ⟨rfl,rfl⟩
  | instruction i length =>
    dsimp only
    cases FrameM.perform e.host f.position i.action { f with position := f.position + length } with
    | error fault g => exact .inl fun state => ⟨rfl,rfl⟩
    | ok effect g =>
      cases effect with
      | leave => exact left g
      | _ => exact .inr fun state => ⟨rfl,rfl⟩

theorem executeNextOfTerminal {e : Engine} (ended : e.state.isTerminal = true) :
    e.executeNext = e := by
  rw [executeNext, if_pos ended]

theorem aliveBefore {e : Engine} (onward : e.executeNext.state.isTerminal = false) :
    e.state.isTerminal = false := by
  cases ended : e.state.isTerminal with
  | false => rfl
  | true =>
    rw [executeNextOfTerminal ended, ended] at onward
    contradiction

theorem executeNextUnframed {e : Engine} (alive : e.state.isTerminal = false)
    (bare : e.frames = []) : e.executeNext = e.setState .halted := by
  simp [executeNext, alive, bare]

theorem executeNextShort {e : Engine} {f : Frame} {rest : List Frame}
    (alive : e.state.isTerminal = false) (shape : e.frames = f :: rest)
    (short : e.gasLimit < e.payGas.gas) :
    e.executeNext = e.payGas.failWith (.outOfGas e.gasLimit) := by
  simp [executeNext, alive, shape, short]

theorem executeNextFramed {e : Engine} {f : Frame} {rest : List Frame}
    (alive : e.state.isTerminal = false) (shape : e.frames = f :: rest)
    (enough : ¬ e.gasLimit < e.payGas.gas) : e.executeNext = e.payGas.runFrame f rest := by
  simp [executeNext, alive, shape, enough]

theorem executeNextGas (e : Engine) :
    e.executeNext.gas ≤ e.gas + 1 ∧ e.executeNext.gasLimit = e.gasLimit := by
  cases ended : e.state.isTerminal with
  | true =>
    rw [executeNextOfTerminal ended]
    exact ⟨Nat.le_succ e.gas,rfl⟩
  | false =>
    cases shape : e.frames with
    | nil =>
      rw [executeNextUnframed ended shape]
      exact ⟨Nat.le_succ e.gas,rfl⟩
    | cons f rest =>
      by_cases short : e.gasLimit < e.payGas.gas
      · rw [executeNextShort ended shape short]
        exact ⟨Nat.le_refl _,rfl⟩
      · rw [executeNextFramed ended shape short]
        exact ⟨Nat.le_of_eq (runFrameGas e.payGas f rest).1,(runFrameGas e.payGas f rest).2⟩

theorem executeNextState {e : Engine} (alive : e.state.isTerminal = false) :
    (∀ state, state.isTerminal = false → (e.setState state).executeNext = e.executeNext ∧
      e.executeNext.state.isTerminal = true) ∨
    (∀ state, state.isTerminal = false →
      (e.setState state).executeNext = e.executeNext.setState state ∧
      e.executeNext.state = e.state) := by
  cases shape : e.frames with
  | nil =>
    left
    intro state running
    have next := @executeNextUnframed (e.setState state) running shape
    rw [next, executeNextUnframed alive shape]
    exact ⟨rfl,rfl⟩
  | cons f rest =>
    by_cases short : e.gasLimit < e.payGas.gas
    · left
      intro state running
      have next := @executeNextShort (e.setState state) f rest running shape short
      rw [next, executeNextShort alive shape short]
      exact ⟨rfl,rfl⟩
    · rw [executeNextFramed alive shape short]
      rcases runFrameState e.payGas f rest with ends | stays
      · left
        intro state running
        have next := @executeNextFramed (e.setState state) f rest running shape short
        rw [next]
        exact ends state
      · right
        intro state running
        have next := @executeNextFramed (e.setState state) f rest running shape short
        rw [next]
        exact stays state

theorem awakeExecuteNext (e : Engine) : e.executeNext.awake = e.awake.executeNext := by
  cases ended : e.state.isTerminal with
  | true => rw [executeNextOfTerminal ended, awakeOfTerminal ended, executeNextOfTerminal ended]
  | false =>
    by_cases paused : e.state = .suspended
    · rw [awakeOfSuspended paused]
      rcases executeNextState ended with ends | stays
      · rw [(ends .running rfl).1, awakeOfTerminal (ends .running rfl).2]
      · rw [(stays .running rfl).1, awakeOfSuspended ((stays .running rfl).2.trans paused)]
    · rw [awakeOfOther paused]
      apply awakeOfOther
      intro wrong
      rcases executeNextState ended with ends | stays
      · have last := (ends .running rfl).2
        simp [wrong, VmState.isTerminal] at last
      · exact paused ((stays .running rfl).2.symm.trans wrong)

theorem awakeIterate (n : Nat) (e : Engine) :
    (executeNext^[n] e).awake = executeNext^[n] e.awake := by
  induction n generalizing e with
  | zero => rfl
  | succ n ih => rw [Function.iterate_succ_apply, Function.iterate_succ_apply, ih, awakeExecuteNext]

theorem iterateOfTerminal {e : Engine} (ended : e.state.isTerminal = true) (n : Nat) :
    executeNext^[n] e = e := Function.iterate_fixed (executeNextOfTerminal ended) n

theorem aliveEarlier {e : Engine} {m n : Nat} (order : m ≤ n)
    (alive : (executeNext^[n] e).state.isTerminal = false) :
    (executeNext^[m] e).state.isTerminal = false := by
  by_contra ended
  obtain ⟨more,rfl⟩ := Nat.exists_eq_add_of_le' order
  rw [Function.iterate_add_apply, iterateOfTerminal (Bool.not_eq_false _ ▸ ended)] at alive
  exact ended alive

theorem endUnique {e : Engine} {m n : Nat} (left : (executeNext^[m] e).state.isTerminal = true)
    (right : (executeNext^[n] e).state.isTerminal = true) :
    executeNext^[m] e = executeNext^[n] e := by
  have later : ∀ {a b : Nat}, a ≤ b → (executeNext^[a] e).state.isTerminal = true →
      executeNext^[b] e = executeNext^[a] e := by
    intro a b order ended
    obtain ⟨more,rfl⟩ := Nat.exists_eq_add_of_le' order
    rw [Function.iterate_add_apply, iterateOfTerminal ended]
  rcases Nat.le_total m n with order | order
  · exact (later order left).symm
  · exact later order right

theorem runReaches (e : Engine) : ∃ n, e.run = executeNext^[n] e ∧ e.run.state ≠ .running := by
  fun_induction run e with
  | case1 e running ih =>
    obtain ⟨n,same,stopped⟩ := ih
    exact ⟨n + 1,by rw [same, Function.iterate_succ_apply],stopped⟩
  | case2 e stopped => exact ⟨0,rfl,stopped⟩

theorem executeReaches (e : Engine) :
    ∃ n, e.execute = executeNext^[n] e.awake ∧ e.execute.state.isTerminal = true := by
  obtain ⟨n,same,stopped⟩ := runReaches e.awake
  have asleep : e.awake.run.awake = e.awake.run := by rw [same, awakeIterate, awakeAwake]
  refine ⟨n,same,?_⟩
  change e.awake.run.state.isTerminal = true
  cases state : e.awake.run.state with
  | running => exact absurd state stopped
  | suspended =>
    have lifted := congrArg Engine.state asleep
    rw [awakeOfSuspended state] at lifted
    exact absurd lifted.symm stopped
  | halted | faulted => rfl

theorem executeIsEnd {e : Engine} {n : Nat}
    (ended : (executeNext^[n] e.awake).state.isTerminal = true) :
    executeNext^[n] e.awake = e.execute := by
  obtain ⟨m,same,last⟩ := executeReaches e
  rw [same] at last ⊢
  exact endUnique ended last

end ScriptDebugger.Engine
