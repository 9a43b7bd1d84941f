import ScriptDebugger.Proofs.Machine.Outcomes

/-! What holds of an engine from the loading of its script on. The state register, the invocation
stack, the fault and the results agree, the entry script is the bottom frame, and the gas counts the
instructions, so no more of them run than the limit lets. -/
namespace ScriptDebugger.Engine

-- Of the frames from the top, the last one and no other was entered as the script.
def Based (entries : List Entry) : Prop :=
  ∀ (i : Nat) (entry : Entry), entries[i]? = some entry →
    (entry = .script ↔ i + 1 = entries.length)

theorem basedPush {top callee : Entry} {below : List Entry} (based : Based (top :: below))
    (other : callee ≠ .script) : Based (callee :: top :: below) := by
  intro i entry found
  cases i with
  | zero =>
    obtain rfl : callee = entry := by simpa using found
    simp [other]
  | succ i => simpa using based i entry (by simpa using found)

theorem basedPop {top : Entry} {below : List Entry} (based : Based (top :: below)) :
    Based below := by
  intro i entry found
  simpa using based (i + 1) entry (by simpa using found)

structure Sound (e : Engine) : Prop where
  halted : e.state = .halted ↔ e.frames = []
  faulted : e.state = .faulted ↔ e.fault.isSome = true
  bottom : Based (e.frames.map Frame.entry)
  results : e.state ≠ .halted → e.results = []

theorem soundFramed {e : Engine} (sound : e.Sound) (alive : e.state.isTerminal = false) :
    e.frames ≠ [] := by
  intro bare
  simp [sound.halted.mpr bare, VmState.isTerminal] at alive

theorem soundUnfaulted {e : Engine} (sound : e.Sound) (alive : e.state.isTerminal = false) :
    e.fault = none := by
  cases fault : e.fault with
  | none => rfl
  | some cause => simp [sound.faulted.mpr (by rw [fault]; rfl), VmState.isTerminal] at alive

theorem soundUnfinished {e : Engine} (sound : e.Sound) (alive : e.state.isTerminal = false) :
    e.results = [] := by
  apply sound.results
  intro halted
  simp [halted, VmState.isTerminal] at alive

-- An engine that goes on is sound with any frames on the right base.
theorem soundOnward {e : Engine} (alive : e.state.isTerminal = false) (framed : e.frames ≠ [])
    (unfaulted : e.fault = none) (bottom : Based (e.frames.map Frame.entry))
    (results : e.results = []) : e.Sound := by
  refine ⟨⟨fun halted => ?_,fun bare => absurd bare framed⟩,⟨fun faulted => ?_,fun some => ?_⟩,
    bottom,fun _ => results⟩
  · simp [halted, VmState.isTerminal] at alive
  · simp [faulted, VmState.isTerminal] at alive
  · simp [unfaulted] at some

theorem soundLoaded (ledger : Snapshot) (timestamp : Option Nat) (signers : List Signer)
    (gasLimit : Int) (surroundings : Surroundings) (script : Bytes) :
    ((create ledger timestamp signers gasLimit surroundings).loadScript script).Sound := by
  refine soundOnward rfl (List.cons_ne_nil _ _) rfl (fun i entry found => ?_) rfl
  cases i with
  | zero =>
    obtain rfl : Entry.script = entry := by simpa [loadScript, create] using found
    simp [loadScript, create]
  | succ i => simp [loadScript, create] at found

theorem soundSetState {e : Engine} {state : VmState} (alive : e.state.isTerminal = false)
    (other : state.isTerminal = false) (sound : e.Sound) : (e.setState state).Sound := by
  have framed := soundFramed sound alive
  have unfaulted := soundUnfaulted sound alive
  have results := soundUnfinished sound alive
  exact soundOnward other framed unfaulted sound.bottom results

theorem soundAwake (e : Engine) : e.awake.Sound ↔ e.Sound := by
  by_cases paused : e.state = .suspended
  · have alive : e.state.isTerminal = false := by rw [paused]; rfl
    rw [awakeOfSuspended paused]
    refine ⟨fun sound => ?_,soundSetState alive rfl⟩
    exact @soundSetState (e.setState .running) e.state rfl alive sound
  · rw [awakeOfOther paused]

theorem soundApply {e : Engine} {f g : Frame} {rest : List Frame} {effect : Effect}
    (sound : e.Sound) (alive : e.state.isTerminal = false) (shape : e.frames = f :: rest)
    (kin : f.Kin g) (lawful : effect.Lawful) : (e.payGas.apply g rest effect).Sound := by
  have unfaulted := soundUnfaulted sound alive
  have results := soundUnfinished sound alive
  have bottom : Based (g.entry :: rest.map Frame.entry) := by
    have before := sound.bottom
    rwa [shape, List.map_cons, ← kin.entry] at before
  cases effect with
  | enter callee =>
    exact soundOnward alive (List.cons_ne_nil _ _) unfaulted (basedPush bottom lawful) results
  | leave =>
    cases rest with
    | nil =>
      refine ⟨⟨fun _ => rfl,fun _ => rfl⟩,⟨fun wrong => ?_,fun some => ?_⟩,
        fun i entry found => ?_,fun wrong => absurd rfl wrong⟩
      · contradiction
      · change e.fault.isSome = true at some
        simp [unfaulted] at some
      · contradiction
    | cons caller rest =>
      have below : Based ((g.returnTo caller :: rest).map Frame.entry) := by
        rw [List.map_cons, (g.kinReturn caller).entry]
        exact basedPop bottom
      exact soundOnward alive (List.cons_ne_nil _ _) unfaulted below results
  | nothing | log | put =>
    exact soundOnward alive (List.cons_ne_nil _ _) unfaulted bottom results

theorem soundExecuteNext {e : Engine} (sound : e.Sound) : e.executeNext.Sound := by
  have outcome := executeNextOutcome e
  generalize e.executeNext = next at outcome ⊢
  cases outcome with
  | ended finished => exact sound
  | bare alive none => exact absurd none (soundFramed sound alive)
  | faulted alive shape kin fault =>
    have results := soundUnfinished sound alive
    have bottom := sound.bottom
    rw [shape, List.map_cons, ← kin.entry] at bottom
    refine ⟨⟨fun wrong => ?_,fun wrong => ?_⟩,⟨fun _ => rfl,fun _ => rfl⟩,bottom,fun _ => results⟩
    · contradiction
    · contradiction
  | applied alive shape kin paid lawful => exact soundApply sound alive shape kin lawful

theorem soundIterate {e : Engine} (sound : e.Sound) (n : Nat) : (executeNext^[n] e).Sound := by
  induction n with
  | zero => exact sound
  | succ n ih =>
    rw [Function.iterate_succ_apply']
    exact soundExecuteNext ih

end ScriptDebugger.Engine
