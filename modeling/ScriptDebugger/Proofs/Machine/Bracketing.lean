import ScriptDebugger.Proofs.Machine.Entering

/-! Calls are bracketed. One instruction changes the stack of frames at its top only, so what stands
below the frame of a callee waits unchanged until that frame is left, and the caller then goes on
behind its call with what the callee left. -/
namespace ScriptDebugger

namespace Frame

-- The frame of a caller behind its call, with what the frame it called has left.
def resumed (f : Frame) (length : Nat) (last : Frame) : Entry → Frame
  | .contract =>
    { f with
      position := f.position + length
      evaluation := last.evaluation ++ f.evaluation.drop 4 }
  | .internal | .script =>
    { f with
      position := f.position + length
      evaluation := last.evaluation
      statics := last.statics }

theorem returnToWaiting {caller last : Frame} {entry : Entry} (length : Nat)
    (called : entry ≠ .script) (entered : last.entry = entry)
    (contract : entry = .internal → last.contract = caller.contract) :
    last.returnTo (caller.waiting length entry) = caller.resumed length last entry := by
  unfold returnTo
  rw [entered]
  cases entry with
  | script => exact absurd rfl called
  | internal => exact congrArg _ (if_pos (contract rfl).symm)
  | contract => rfl

end Frame

namespace Engine

inductive Moved (f : Frame) (rest : List Frame) : List Frame → Prop where
  | stays {g : Frame} (kin : f.Kin g) : Moved f rest (g :: rest)
  | enters {g : Frame} (kin : f.Kin g) (callee : Frame) : Moved f rest (callee :: g :: rest)
  | returns (leaves : f.Leaves) {caller : Frame} {below : List Frame}
      (shape : rest = caller :: below) : Moved f rest (f.returnTo caller :: below)
  | ends (leaves : f.Leaves) (bare : rest = []) : Moved f rest []

theorem leaveMoved (e : Engine) {f : Frame} (rest : List Frame) (leaves : f.Leaves) :
    Moved f rest (e.leave f rest).frames := by
  cases rest with
  | nil => exact .ends leaves rfl
  | cons caller below => exact .returns leaves rfl

theorem executeNextMoved {e : Engine} {f : Frame} {rest : List Frame}
    (shape : e.frames = f :: rest) : Moved f rest e.executeNext.frames := by
  have still : Moved f rest e.frames := shape ▸ .stays f.kinRefl
  cases ended : e.state.isTerminal with
  | true => rwa [executeNextOfTerminal ended]
  | false =>
    by_cases short : e.gasLimit < e.payGas.gas
    · rwa [executeNextShort ended shape short]
    rw [executeNextFramed ended shape short]
    have ran := @runFrameRan e.payGas f rest shape
    generalize e.payGas.runFrame f rest = next at ran ⊢
    cases ran with
    | faulted kin => exact .stays kin
    | left leaves => exact leaveMoved e.payGas rest leaves
    | @applied g kin effect _ stays =>
      cases effect with
      | nothing | log | put => exact .stays kin
      | enter callee => exact .enters kin callee
      | leave => exact absurd rfl stays

-- The frames of a call in progress: what the callee has become, and what it has called, on what it
-- was pushed on.
def Above (callee : Frame) (lower frames : List Frame) : Prop :=
  ∃ upper root, frames = upper ++ root :: lower ∧ callee.Kin root

structure Returned (callee caller : Frame) (below : List Frame) (last : Frame)
    (before after : List Frame) : Prop where
  kin : callee.Kin last
  leaves : last.Leaves
  before : before = last :: caller :: below
  after : after = last.returnTo caller :: below

-- The next instruction leaves what `f` has become on `lower`.
structure Leaving (f : Frame) (lower : List Frame) (e : Engine) (last : Frame) : Prop where
  kin : f.Kin last
  leaves : last.Leaves
  before : e.frames = last :: lower
  after : e.executeNext.frames = (e.leave last lower).frames

variable {e : Engine} {f callee caller : Frame} {lower below : List Frame}

theorem aboveDepth {frames : List Frame} (above : Above f lower frames) :
    lower.length < frames.length := by
  obtain ⟨upper,root,rfl,_⟩ := above
  simp only [List.length_append, List.length_cons]
  omega

theorem leavingDepth {last : Frame} (leaving : Leaving f lower e last) :
    e.executeNext.frames.length = lower.length := by
  rw [leaving.after]
  cases lower <;> rfl

theorem aboveOrLeaving (above : Above f lower e.frames) :
    Above f lower e.executeNext.frames ∨ ∃ last, Leaving f lower e last := by
  obtain ⟨upper,root,shape,kin⟩ := above
  cases upper with
  | nil =>
    have moved := executeNextMoved shape
    generalize after : e.executeNext.frames = frames at moved ⊢
    cases moved with
    | stays onward => exact .inl ⟨[],_,rfl,Frame.kinTrans kin onward⟩
    | enters onward inner => exact .inl ⟨[inner],_,rfl,Frame.kinTrans kin onward⟩
    | returns leaves bottom =>
      cases bottom
      exact .inr ⟨root,kin,leaves,shape,after⟩
    | ends leaves bare =>
      cases bare
      exact .inr ⟨root,kin,leaves,shape,after⟩
  | cons top upper =>
    left
    have moved := executeNextMoved shape
    generalize e.executeNext.frames = frames at moved ⊢
    cases moved with
    | @stays g _ => exact ⟨g :: upper,root,rfl,kin⟩
    | @enters g _ inner => exact ⟨inner :: g :: upper,root,rfl,kin⟩
    | returns leaves bottom =>
      cases upper with
      | nil =>
        cases bottom
        exact ⟨[],_,rfl,Frame.kinTrans kin (top.kinReturn root)⟩
      | cons second upper =>
        cases bottom
        exact ⟨_ :: upper,root,rfl,kin⟩
    | ends _ bare => simp at bare

-- The induction is on the instructions: what stands on `lower` is what `f` has become, until one of
-- them leaves it.
theorem aboveUntilLeft (above : Above f lower e.frames) (n : Nat) :
    Above f lower (executeNext^[n] e).frames ∨
      ∃ k < n, ∃ last, Leaving f lower (executeNext^[k] e) last := by
  induction n with
  | zero => exact .inl above
  | succ n ih =>
    rw [Function.iterate_succ_apply']
    rcases ih with before | ⟨k,less,left⟩
    · rcases aboveOrLeaving before with onward | left
      · exact .inl onward
      · exact .inr ⟨n,Nat.lt_succ_self n,left⟩
    · exact .inr ⟨k,Nat.lt_succ_of_lt less,left⟩

theorem aboveRun (above : Above f lower e.frames) {n : Nat}
    (deeper : ∀ k < n, (executeNext^[k + 1] e).frames.length ≠ lower.length) :
    Above f lower (executeNext^[n] e).frames := by
  rcases aboveUntilLeft above n with onward | ⟨k,less,last,leaving⟩
  · exact onward
  · have depth := leavingDepth leaving
    rw [← Function.iterate_succ_apply' executeNext k e] at depth
    exact absurd depth (deeper k less)

theorem aboveStep (above : Above callee (caller :: below) e.frames) :
    Above callee (caller :: below) e.executeNext.frames ∨
      ∃ last, Returned callee caller below last e.frames e.executeNext.frames := by
  rcases aboveOrLeaving above with onward | ⟨last,kin,leaves,before,after⟩
  · exact .inl onward
  · exact .inr ⟨last,kin,leaves,before,after⟩

-- Between a call and the first instruction that leads back to its depth the frames below wait, and
-- that instruction leaves the frame of the callee.
def Bracketed (e : Engine) (i : Instruction) (entry : Entry) : Prop :=
  let after (n : Nat) := executeNext^[n] e
  ∃ caller below length, e.frames = caller :: below ∧ caller.fetched = .instruction i length ∧
    (entry = .contract → 4 ≤ caller.evaluation.length) ∧
    let waiting := caller.waiting length entry
    ∀ n, (∀ k < n, (after (k + 1)).frames.length ≠ e.frames.length) →
      (e.frames.length < (after (n + 1)).frames.length ∧
        ∃ upper, (after (n + 1)).frames = upper ++ waiting :: below) ∨
      ∃ last, last.Leaves ∧ (after n).frames = last :: waiting :: below ∧
        (after (n + 1)).frames = caller.resumed length last entry :: below

theorem callsBracketed {i : Instruction} {entry : Entry} (here : e.next? = some i)
    (calls : i.entry? = some entry) (succeeds : e.executeNext.state.isTerminal = false) :
    e.Bracketed i entry := by
  obtain ⟨caller,callee,below,length,entering,fetched⟩ := callEnters here calls succeeds
  have called : entry ≠ .script := by
    cases Instruction.entryCalling calls <;> decide
  refine ⟨caller,below,length,entering.shape,fetched,entering.held,fun n deeper => ?_⟩
  have depth : e.frames.length = below.length + 1 := by rw [entering.shape]; rfl
  have start : Above callee (caller.waiting length entry :: below) e.executeNext.frames := by
    rw [entering.after]
    exact ⟨[],callee,rfl,callee.kinRefl⟩
  rw [depth] at deeper ⊢
  cases n with
  | zero => exact .inl ⟨aboveDepth start,[callee],congrArg Engine.frames entering.after⟩
  | succ n =>
    have before : Above callee (caller.waiting length entry :: below)
        (executeNext^[n + 1] e).frames := by
      rw [Function.iterate_succ_apply]
      apply aboveRun start
      intro k less
      rw [← Function.iterate_succ_apply]
      exact deeper (k + 1) (Nat.succ_lt_succ less)
    have step := aboveStep before
    rw [← Function.iterate_succ_apply' executeNext (n + 1) e] at step
    rcases step with onward | ⟨last,returned⟩
    · have deep := aboveDepth onward
      obtain ⟨upper,root,shape,_⟩ := onward
      exact .inl ⟨deep,upper ++ [root],shape.trans (List.append_cons _ _ _)⟩
    · have entered : last.entry = entry := returned.kin.entry.trans entering.entered
      have contract (internal : entry = .internal) : last.contract = caller.contract :=
        returned.kin.contract.trans (entering.contract internal)
      have resumed := Frame.returnToWaiting length called entered contract
      exact .inr ⟨last,returned.leaves,returned.before,resumed ▸ returned.after⟩

-- A call at 1 of the routine at 4, which adds one to what it was given.
theorem incrementBracketed :
    let frame : Frame :=
      { contract := .zero, script := [0x15,0x34,3,0x40,0x9c,0x40], position := 1, entry := .script
        evaluation := [.integer 5] }
    let e : Engine := { frames := [frame], gasLimit := 10, ledger := .empty }
    e.next? = some ⟨.CALL,[3]⟩ ∧ Instruction.entry? ⟨.CALL,[3]⟩ = some .internal ∧
      e.executeNext.state.isTerminal = false ∧ e.Bracketed ⟨.CALL,[3]⟩ .internal := by
  intro frame e
  have here : e.next? = some ⟨.CALL,[3]⟩ := by decide
  have calls : Instruction.entry? ⟨.CALL,[3]⟩ = some .internal := rfl
  have succeeds : e.executeNext.state.isTerminal = false := by decide
  exact ⟨here,calls,succeeds,callsBracketed here calls succeeds⟩

end Engine
end ScriptDebugger
