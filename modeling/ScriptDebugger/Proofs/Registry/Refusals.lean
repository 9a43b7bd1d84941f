import ScriptDebugger.Proofs.Registry.Commands
import ScriptDebugger.Proofs.Source.Unreadable

/-! Requests to a registry that are refused. Each is refused for what it names and for nothing else, a
batch for the first of its entries that is at fault, and whatever it named besides, the profiles, the
coverage and the breakpoints of every contract are as they were. -/
namespace ScriptDebugger

def FirstAmong {α : Type} (bad : α → Prop) (x : α) (xs : List α) : Prop :=
  ∃ before after, xs = before ++ x :: after ∧ bad x ∧ ∀ y ∈ before, ¬ bad y

section Batch

variable {α β : Type} {p : α → Bool} {bad : α → Prop}

theorem firstFound (tells : ∀ y, p y = true ↔ bad y) (xs : List α) (x : α) :
    xs.find? p = some x ↔ FirstAmong bad x xs := by
  rw [List.find?_eq_some_iff_append, tells]
  simp only [Bool.not_eq_eq_eq_not, Bool.not_true, ← Bool.not_eq_true, tells]
  constructor
  · exact fun ⟨here,before,after,whole,free⟩ => ⟨before,after,whole,here,free⟩
  · exact fun ⟨before,after,whole,here,free⟩ => ⟨here,before,after,whole,free⟩

-- A batch is refused for its first entry at fault, and granted as a whole if it has none.
theorem batchRefused (tells : ∀ y, p y = true ↔ bad y) {xs : List α} {named : α → Error}
    {result : Result β} (refuses : ∀ y, xs.find? p = some y → result = .error (named y))
    (grants : xs.find? p = none → ¬ Refused result) (cause : Error) :
    result = .error cause ↔ ∃ y, FirstAmong bad y xs ∧ cause = named y := by
  simp only [← firstFound tells]
  cases found : xs.find? p with
  | none => exact iff_of_false (fun refused => grants found ⟨cause,refused⟩) nofun
  | some y =>
    rw [refuses y found]
    constructor
    · exact fun refused => ⟨y,rfl,(Except.error.inj refused).symm⟩
    · rintro ⟨_,⟨⟩,rfl⟩
      rfl

end Batch

namespace Registry

variable (r : Registry) (contract : ContractHash) (cause : Error)

def Refuses (request : RegistryRequest) : Prop :=
  ∃ left, request.command.run r = .error cause left

theorem refusesPerformed (request : RegistryRequest) :
    r.Refuses cause request ↔ request.perform r = .error cause := by
  unfold Refuses
  rw [request.carriedOut r]
  cases request.perform r with
  | error other => simp
  | ok granted => exact iff_of_false nofun nofun

theorem refusedKeeps {r left : Registry} {request : RegistryRequest} {cause : Error}
    (refused : request.command.run r = .error cause left) : left = r := by
  rw [request.carriedOut r] at refused
  split at refused
  · contradiction
  · cases refused
    rfl

theorem profileRefused :
    r.profile contract = .error cause ↔
      r.profile? contract = none ∧ cause = .notRegistered contract none := by
  unfold profile
  cases r.profile? contract with
  | none => exact ⟨fun same => ⟨rfl,(Except.error.inj same).symm⟩,fun both => both.2 ▸ rfl⟩
  | some p => exact iff_of_false nofun nofun

theorem infoRefused (metadata dump : String) :
    (∃ cause, r.Refuses cause (.setDebugInfo contract metadata dump)) ↔
      DebugInfo.Unreadable metadata ∨
        ∃ line ∈ SourceMap.recognised dump, ¬ line.2.Known := by
  rw [← Profile.textsRefused contract]
  refine exists_congr fun cause => ?_
  rw [refusesPerformed]
  exact (refusedThen _ cause).trans (refusedThen _ cause)

theorem assemblyRefused (offsets : List Nat) :
    r.Refuses cause (.setAssembly contract offsets) ↔
      ∃ p, r.profile? contract = some p ∧ ∃ offset, FirstAmong (· ∉ p.map.opcodes) offset offsets ∧
        cause = .invalidOffset contract offset := by
  rw [refusesPerformed]
  refine (refusedThen _ cause).trans ?_
  unfold setAssemblyBreakpoints
  cases r.profile? contract with
  | none => exact iff_of_false nofun nofun
  | some p =>
    have tells (o : Nat) : (p.map.opcode? o).isNone = true ↔ o ∉ p.map.opcodes := by
      simp [SourceMap.opcode?]
    simp only [Option.some.injEq, exists_eq_left']
    refine batchRefused tells (fun o found => ?_) (fun free => ?_) cause
    · rw [found]
      rfl
    · rw [free]
      exact refusedNever _

theorem sourceRefused (locations : List SourceLocation) :
    r.Refuses cause (.setSource contract locations) ↔
      (r.profile? contract = none ∧ cause = .notRegistered contract none) ∨
      ∃ p, r.profile? contract = some p ∧ ∃ location,
        FirstAmong (· ∉ p.map.locations) location locations ∧ cause = .invalidLocation location := by
  rw [refusesPerformed]
  refine (refusedThen _ cause).trans ?_
  rw [← profileRefused]
  unfold setSourceBreakpoints
  cases known : r.profile? contract with
  | none =>
    rw [(profileRefused r contract _).mpr ⟨known,rfl⟩, or_iff_left (by rintro ⟨_,⟨⟩,_⟩),
      refusedHead, Except.error.injEq]
  | some p =>
    have tells (l : SourceLocation) : (!p.map.locations.contains l) = true ↔ l ∉ p.map.locations := by
      simp [← Std.ExtTreeSet.contains_iff_mem]
    rw [profileFound known]
    dsimp only [bind, Except.bind]
    simp only [reduceCtorEq, false_or, Option.some.injEq, exists_eq_left']
    refine batchRefused tells (fun l found => ?_) (fun free => ?_) cause
    · rw [found]
      rfl
    · rw [free]
      exact refusedNever _

theorem unknownRefused {α : Type} {result : PUnit → Result α} (grants : ∀ u, ¬ Refused (result u)) :
    (discard (r.profile contract) >>= result) = .error cause ↔
      r.profile? contract = none ∧ cause = .notRegistered contract none := by
  rw [← profileRefused]
  cases r.profile contract with
  | error other =>
    rw [Except.error.injEq]
    exact refusedHead result cause
  | ok p => exact iff_of_false (fun refused => grants ⟨⟩ ⟨cause,refused⟩) nofun

theorem sourceDeletionRefused (locations : List SourceLocation) :
    r.Refuses cause (.deleteSource contract locations) ↔
      r.profile? contract = none ∧ cause = .notRegistered contract none := by
  rw [refusesPerformed]
  exact (refusedThen _ cause).trans (unknownRefused r contract cause fun _ => refusedNever _)

theorem clearanceRefused :
    r.Refuses cause (.clearCoverage contract) ↔
      r.profile? contract = none ∧ cause = .notRegistered contract none := by
  rw [refusesPerformed]
  exact (refusedThen _ cause).trans (unknownRefused r contract cause fun _ => refusedNever _)

-- A request that is refused is any of them, whichever tables it would have changed.
theorem refusalsKeepTables :
    (∀ (request : RegistryRequest) left cause, request.command.run r = .error cause left → left = r) ∧
    ∀ contract,
      (∀ metadata dump, (∃ cause, r.Refuses cause (.setDebugInfo contract metadata dump)) ↔
        DebugInfo.Unreadable metadata ∨ ∃ line ∈ SourceMap.recognised dump, ¬ line.2.Known) ∧
      (∀ offsets cause, r.Refuses cause (.setAssembly contract offsets) ↔
        ∃ p, r.profile? contract = some p ∧ ∃ offset,
          FirstAmong (· ∉ p.map.opcodes) offset offsets ∧ cause = .invalidOffset contract offset) ∧
      (∀ locations cause, r.Refuses cause (.setSource contract locations) ↔
        (r.profile? contract = none ∧ cause = .notRegistered contract none) ∨
        ∃ p, r.profile? contract = some p ∧ ∃ location,
          FirstAmong (· ∉ p.map.locations) location locations ∧ cause = .invalidLocation location) ∧
      (∀ locations cause, r.Refuses cause (.deleteSource contract locations) ↔
        r.profile? contract = none ∧ cause = .notRegistered contract none) ∧
      ∀ cause, r.Refuses cause (.clearCoverage contract) ↔
        r.profile? contract = none ∧ cause = .notRegistered contract none :=
  ⟨fun _ _ _ => refusedKeeps,fun contract =>
    ⟨infoRefused r contract,fun offsets cause => assemblyRefused r contract cause offsets,
      fun locations cause => sourceRefused r contract cause locations,
      fun locations cause => sourceDeletionRefused r contract cause locations,
      clearanceRefused r contract⟩⟩

end Registry

end ScriptDebugger
