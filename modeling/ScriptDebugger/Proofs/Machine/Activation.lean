import Mathlib.Data.Nat.Find
import ScriptDebugger.Proofs.Machine.Bracketing

/-! Which frame stands at a depth. It is what the one that stood there has become as long as nothing
came down below that depth. Otherwise that one was left, and the last call that rose to the depth pushed
the frame which stands there now. -/
namespace ScriptDebugger.Engine

theorem deepensEnters {e : Engine} (deeper : e.frames.length < e.executeNext.frames.length)
    (onward : e.executeNext.state.isTerminal = false) :
    ∃ callee, e.Enters callee ∧ e.executeNext.frames.length = e.frames.length + 1 := by
  have alive : e.state.isTerminal = false := aliveBefore onward
  have same : e.executeNext.state = e.state := by
    rcases executeNextState alive with ends | stays
    · simp [(ends .running rfl).2] at onward
    · exact (stays .running rfl).2
  cases shape : e.frames with
  | nil =>
    rw [executeNextUnframed alive shape] at onward
    contradiction
  | cons f rest =>
    have moved := executeNextMoved shape
    rw [shape] at deeper
    generalize after : e.executeNext.frames = frames at deeper moved ⊢
    cases moved with
    | @enters caller kin callee =>
      refine ⟨callee,⟨same,caller,?_⟩,rfl⟩
      rw [after, shape]
      rfl
    | stays => exact absurd deeper (Nat.lt_irrefl _)
    | returns _ bottom =>
      rw [bottom] at deeper
      simp only [List.length_cons] at deeper
      omega
    | ends => contradiction

theorem aboveTop {f g : Frame} {lower below : List Frame} (above : Above f lower (g :: below))
    (level : below.length = lower.length) : f.Kin g ∧ below = lower := by
  obtain ⟨upper,root,shape,kin⟩ := above
  cases upper with
  | nil =>
    cases shape
    exact ⟨kin,rfl⟩
  | cons top upper =>
    have same := congrArg List.length shape
    simp only [List.length_append, List.length_cons] at same
    omega

variable {e : Engine} {m n : Nat}

-- The call that rose to a depth for the last time.
theorem lastRise {depth : Nat} (order : m ≤ n)
    (low : (executeNext^[m] e).frames.length < depth)
    (high : depth ≤ (executeNext^[n] e).frames.length)
    (alive : (executeNext^[n] e).state.isTerminal = false) :
    ∃ j callee, m ≤ j ∧ j < n ∧ (executeNext^[j] e).Enters callee ∧
      (executeNext^[j] e).frames.length + 1 = depth ∧
      (executeNext^[j + 1] e).frames.length = depth ∧
      ∀ k, j < k → k ≤ n → depth ≤ (executeNext^[k] e).frames.length := by
  let lower (k : Nat) : Prop := (executeNext^[k] e).frames.length < depth
  let j : Nat := Nat.findGreatest lower n
  have last : lower j := Nat.findGreatest_spec order low
  have since (k : Nat) (later : j < k) (within : k ≤ n) :
      depth ≤ (executeNext^[k] e).frames.length :=
    Nat.not_lt.mp (@Nat.findGreatest_is_greatest k lower _ n later within)
  have before : j < n := by
    apply Nat.lt_of_le_of_ne (Nat.findGreatest_le n)
    intro same
    exact absurd high (Nat.not_le.mpr (same ▸ last))
  have rises := since (j + 1) (Nat.lt_succ_self j) before
  have goes := aliveEarlier before alive
  have still : (executeNext^[j] e).frames.length < depth := last
  rw [Function.iterate_succ_apply'] at rises goes
  obtain ⟨callee,enters,next⟩ := deepensEnters (Nat.lt_of_lt_of_le still rises) goes
  refine ⟨j,callee,Nat.le_findGreatest order low,before,enters,by omega,?_,since⟩
  rw [Function.iterate_succ_apply']
  omega

-- The frame `g` on `below`, `n` instructions after `f` stood on `lower`.
inductive Occupies (f : Frame) (lower : List Frame) (e : Engine) (n : Nat) (g : Frame)
    (below : List Frame) : Prop where
  | stayed (never : ∀ k ≤ n, lower.length < (executeNext^[k] e).frames.length) (kin : f.Kin g)
      (bottom : below = lower)
  | replaced {m j : Nat} {last callee : Frame} (left : Leaving f lower (executeNext^[m] e) last)
      (order : m < j) (before : j < n) (enters : (executeNext^[j] e).Enters callee)
      (level : (executeNext^[j] e).frames.length = lower.length)
      (since : ∀ k, j < k → k ≤ n → lower.length < (executeNext^[k] e).frames.length)
      (kin : callee.Kin g)

theorem occupiesDepth {f g : Frame} {lower below : List Frame} (shape : e.frames = f :: lower)
    (after : (executeNext^[n] e).frames = g :: below) (level : below.length = lower.length)
    (alive : (executeNext^[n] e).state.isTerminal = false) : Occupies f lower e n g below := by
  have start : Above f lower e.frames := ⟨[],f,shape,f.kinRefl⟩
  by_cases never : ∀ k ≤ n, lower.length < (executeNext^[k] e).frames.length
  · have above : Above f lower (executeNext^[n] e).frames :=
      aboveRun start fun k less => Nat.ne_of_gt (never (k + 1) less)
    rw [after] at above
    obtain ⟨kin,bottom⟩ := aboveTop above level
    exact .stayed never kin bottom
  · push Not at never
    obtain ⟨low,within,down⟩ := never
    obtain ⟨m,earlier,last,leaving⟩ :=
      (aboveUntilLeft start low).resolve_left fun above => Nat.not_le.mpr (aboveDepth above) down
    have left : (executeNext^[m + 1] e).frames.length = lower.length := by
      rw [Function.iterate_succ_apply']
      exact leavingDepth leaving
    obtain ⟨j,callee,order,before,enters,height,risen,since⟩ :=
      @lastRise e (m + 1) n (lower.length + 1) (Nat.le_trans earlier within) (by omega)
        (by rw [after, List.length_cons, level]) alive
    obtain ⟨caller,shape⟩ := enters.2
    rw [← Function.iterate_succ_apply' executeNext j e] at shape
    have bottom : (caller :: (executeNext^[j] e).frames.tail).length = lower.length := by
      rw [shape] at risen
      exact Nat.succ.inj risen
    have above : Above callee (caller :: (executeNext^[j] e).frames.tail)
        (executeNext^[n] e).frames := by
      obtain ⟨more,rfl⟩ := Nat.exists_eq_add_of_le' before
      rw [Function.iterate_add_apply]
      apply aboveRun ⟨[],callee,shape,callee.kinRefl⟩
      intro k less
      rw [← Function.iterate_add_apply, bottom]
      exact Nat.ne_of_gt (since (k + 1 + (j + 1)) (by omega) (by omega))
    rw [after] at above
    exact .replaced leaving order before enters (Nat.succ.inj height) since
      (aboveTop above (level.trans bottom.symm)).1

end ScriptDebugger.Engine
