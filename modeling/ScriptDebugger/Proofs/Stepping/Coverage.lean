import ScriptDebugger.Proofs.Stepping.Course

/-! What runs do to the coverage. Instructions raise flags of contracts and offsets that are tracked;
none is lowered, and none comes or goes. -/
namespace ScriptDebugger

namespace Coverage

def Raised (before after : Flags) : Prop :=
  ∀ offset : Nat, after[offset]? = before[offset]? ∨
    before[offset]? = some false ∧ after[offset]? = some true

def Grows (before after : Coverage) : Prop :=
  ∀ contract : ContractHash, Option.Rel Raised before[contract]? after[contract]?

theorem raisedRefl (flags : Flags) : Raised flags flags := fun _ => .inl rfl

theorem raisedTrans {before between after : Flags} (first : Raised before between)
    (second : Raised between after) : Raised before after := by
  intro offset
  rcases first offset with same | ⟨low,high⟩
  · rw [← same]
    exact second offset
  · rcases second offset with same | ⟨low',_⟩
    · exact .inr ⟨low,same.trans high⟩
    · simp [high] at low'

theorem raisedMark (flags : Flags) (offset : Nat) :
    Raised flags (flags.modify offset fun _ => true) := by
  intro other
  rw [Std.ExtTreeMap.getElem?_modify]
  split
  · next same =>
    cases Std.LawfulEqOrd.eq_of_compare same
    cases flags[offset]? with
    | none => exact .inl rfl
    | some flag => cases flag <;> simp
  · exact .inl rfl

theorem raisedKeys {before after : Flags} (raised : Raised before after) (offset : Nat) :
    offset ∈ after ↔ offset ∈ before := by
  rw [Std.ExtTreeMap.mem_iff_isSome_getElem?, Std.ExtTreeMap.mem_iff_isSome_getElem?]
  rcases raised offset with same | ⟨low,high⟩
  · rw [same]
  · simp [low, high]

theorem growsRefl (coverage : Coverage) : coverage.Grows coverage := by
  intro contract
  cases coverage[contract]? with
  | none => exact .none
  | some flags => exact .some (raisedRefl flags)

theorem growsTrans {before between after : Coverage} (first : before.Grows between)
    (second : between.Grows after) : before.Grows after := by
  intro contract
  have early := first contract
  have late := second contract
  generalize before[contract]? = low at early ⊢
  generalize between[contract]? = middle at early late
  generalize after[contract]? = high at late ⊢
  cases early with
  | none => exact late
  | some raised =>
    cases late with
    | some again => exact .some (raisedTrans raised again)

theorem growsMark (coverage : Coverage) (contract : ContractHash) (offset : Nat) :
    coverage.Grows (coverage.mark contract offset) := by
  intro other
  rw [mark, Std.ExtTreeMap.getElem?_modify]
  split
  · next same =>
    cases Std.LawfulEqOrd.eq_of_compare same
    cases coverage[contract]? with
    | none => exact .none
    | some flags => exact .some (raisedMark flags offset)
  · exact growsRefl coverage other

end Coverage

namespace Run

def Covers (run next : Run) : Prop := run.coverage.Grows next.coverage

theorem coversClosed : Closed Covers where
  refl run := Coverage.growsRefl run.coverage
  trans first second := Coverage.growsTrans first second
  step {run} _ := by
    unfold Covers step
    cases run.engine.frames.head? with
    | none => exact Coverage.growsRefl run.coverage
    | some f => exact Coverage.growsMark run.coverage f.contract f.position
  state {run _} _ _ := Coverage.growsRefl run.coverage

inductive Drive where
  | advance (required : StopReason)
  | runUntil (required : StopReason)
  | resume (mode : StepMode)

def drive (r : Registry) (run : Run) : Drive → Run
  | .advance required => (advance r required run).2
  | .runUntil required => (runUntil r required run).2
  | .resume mode =>
    match resume r mode run with
    | .ok (_,next) => next
    | .error _ => run

theorem driveCovers (r : Registry) (run : Run) (command : Drive) :
    run.coverage.Grows (run.drive r command).coverage := by
  cases command with
  | advance required => exact closedAdvance coversClosed r required run
  | runUntil required => exact closedRunUntil coversClosed r required run
  | resume mode =>
    simp only [drive]
    split
    · next resumed => exact closedResume coversClosed resumed
    · exact Coverage.growsRefl run.coverage

end Run

end ScriptDebugger
