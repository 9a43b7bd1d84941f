import Mathlib.Logic.Basic
import ScriptDebugger.Error

/-! What it takes for a result to be refused that is made of others: one of those it is made of is. -/
namespace ScriptDebugger

variable {α β : Type}

def Refused (result : Result α) : Prop := ∃ cause, result = .error cause

theorem refusedNever (x : α) : ¬ Refused (.ok x) := nofun

theorem refusedBind {result : Result α} {next : α → Result β} :
    Refused (result >>= next) ↔ Refused result ∨ ∃ x, result = .ok x ∧ Refused (next x) := by
  cases result with
  | error cause => exact iff_of_true ⟨cause,rfl⟩ (.inl ⟨cause,rfl⟩)
  | ok x =>
    refine ⟨fun later => .inr ⟨x,rfl,later⟩,?_⟩
    rintro (first | ⟨y,same,later⟩)
    · exact absurd first (refusedNever x)
    · cases same
      exact later

theorem refusedEither {first : Result α} {second : Result β} {γ : Type} {next : α → β → γ} :
    Refused (do let x ← first; let y ← second; return next x y) ↔ Refused first ∨ Refused second := by
  cases first with
  | error cause => exact iff_of_true ⟨cause,rfl⟩ (.inl ⟨cause,rfl⟩)
  | ok x =>
    rw [or_iff_right (refusedNever x)]
    cases second with
    | error cause => exact iff_of_true ⟨cause,rfl⟩ ⟨cause,rfl⟩
    | ok y => exact iff_of_false (refusedNever _) (refusedNever y)

theorem refusedEach {f : α → Result β} {xs : List α} :
    Refused (xs.mapM f) ↔ ∃ x ∈ xs, Refused (f x) := by
  induction xs with
  | nil => exact iff_of_false (refusedNever []) nofun
  | cons head tail ih =>
    rw [List.mapM_cons, refusedEither, ih]
    simp only [List.mem_cons, exists_eq_or_imp]

theorem refusedHead {other : Error} (next : α → Result β) (cause : Error) :
    ((.error other : Result α) >>= next) = .error cause ↔ other = cause :=
  ⟨Except.error.inj,congrArg Except.error⟩

theorem refusedThen {result : Result α} (f : α → β) (cause : Error) :
    (do return f (← result)) = .error cause ↔ result = .error cause := by
  cases result with
  | error other => rw [refusedHead, Except.error.injEq]
  | ok x => exact iff_of_false nofun nofun

end ScriptDebugger
