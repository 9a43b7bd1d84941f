import Mathlib.Logic.Basic
import ScriptDebugger.Breakpoints

/-! Requests for breakpoints entry by entry. Whatever comes again in a request changes nothing any more,
so each entry is answered by what was there before the request, and the set in the end has or lacks
just what was asked. -/
namespace ScriptDebugger

theorem flagsInserted (flag : Bool) (offsets : List Nat) (flags : Std.ExtTreeMap Nat Bool)
    (offset : Nat) :
    (flags.insertMany (offsets.map (·,flag)))[offset]? =
      if offset ∈ offsets then some flag else flags[offset]? := by
  induction offsets generalizing flags with
  | nil => rw [List.map_nil, Std.ExtTreeMap.insertMany_nil, if_neg List.not_mem_nil]
  | cons head tail ih =>
    rw [List.map_cons, Std.ExtTreeMap.insertMany_cons, ih, Std.ExtTreeMap.getElem?_insert]
    by_cases same : head = offset
    · simp [same]
    · simp [same, Ne.symm same]

theorem flagsAlike (flag : Bool) (offsets : List Nat) (offset : Nat) :
    (Std.ExtTreeMap.ofList (offsets.map (·,flag)))[offset]? =
      if offset ∈ offsets then some flag else none := by
  rw [Std.ExtTreeMap.ofList_eq_insertMany_empty, flagsInserted, Std.ExtTreeMap.getElem?_empty]

namespace Breakpoints

structure Answered (present : Bool) (before : Std.ExtTreeSet Nat) (asked : List Nat)
    (done : Std.ExtTreeMap Nat Bool × Std.ExtTreeSet Nat) : Prop where
  answers (o : Nat) : done.1[o]? = if o ∈ asked then some (before.contains o != present) else none
  members (o : Nat) : o ∈ done.2 ↔ if o ∈ asked then present = true else o ∈ before

section Answered

variable {present : Bool} {before : Std.ExtTreeSet Nat} {asked : List Nat}
  {done : Std.ExtTreeMap Nat Bool × Std.ExtTreeSet Nat}

theorem mentionedAnswered (answered : Answered present before asked done) (offset : Nat) :
    done.1.contains offset = decide (offset ∈ asked) := by
  rw [← Std.ExtTreeMap.isSome_getElem?_eq_contains, answered.answers]
  split <;> simp [*]

theorem answeredAgain (answered : Answered present before asked done) {offset : Nat}
    (again : offset ∈ asked) :
    Answered present before (asked ++ [offset]) (setNext present done offset) := by
  have same (o : Nat) : o ∈ asked ++ [offset] ↔ o ∈ asked := by
    rw [List.mem_append, List.mem_singleton]
    exact or_iff_left_of_imp (· ▸ again)
  rw [setNext, mentionedAnswered answered, decide_eq_true again, if_pos rfl]
  exact ⟨fun o => by simpa only [same] using answered.answers o,
    fun o => by simpa only [same] using answered.members o⟩

theorem answeredFirst (answered : Answered present before asked done) {offset : Nat}
    (first : offset ∉ asked) :
    Answered present before (asked ++ [offset]) (setNext present done offset) := by
  have kept : done.2.contains offset = before.contains offset := by
    rw [Bool.eq_iff_iff, Std.ExtTreeSet.contains_iff_mem, Std.ExtTreeSet.contains_iff_mem,
      answered.members, if_neg first]
  rw [setNext, mentionedAnswered answered, decide_eq_false first, if_neg Bool.false_ne_true, kept]
  constructor
  · intro o
    by_cases same : offset = o
    · subst same
      simp
    · simp [Std.ExtTreeMap.getElem?_insert, same, Ne.symm same, answered.answers]
  · intro o
    have other := answered.members o
    by_cases same : offset = o
    · subst same
      cases present <;> simp
    · cases present <;> simp [same, Ne.symm same, other]

theorem answeredNext (answered : Answered present before asked done) (offset : Nat) :
    Answered present before (asked ++ [offset]) (setNext present done offset) := by
  by_cases again : offset ∈ asked
  · exact answeredAgain answered again
  · exact answeredFirst answered again

end Answered

theorem answeredAll (present : Bool) (set : Std.ExtTreeSet Nat) (offsets : List Nat) :
    Answered present set offsets (setAll present set offsets) := by
  have run (asked : List Nat) (done : Std.ExtTreeMap Nat Bool × Std.ExtTreeSet Nat)
      (answered : Answered present set asked done) :
      Answered present set (asked ++ offsets) (offsets.foldl (setNext present) done) := by
    induction offsets generalizing asked done with
    | nil => rwa [List.append_nil]
    | cons head tail ih =>
      rw [List.append_cons]
      exact ih _ _ (answeredNext answered head)
  exact run [] _ ⟨fun _ => Std.ExtTreeMap.getElem?_empty,fun _ => Iff.rfl⟩

theorem takeOutAnswers (removed source : Std.ExtTreeSet SourceLocation)
    (locations : List SourceLocation) :
    (takeOut removed source locations).1 =
      locations.map fun l => (l,source.contains l || removed.contains l) := by
  induction locations generalizing removed source with
  | nil => rfl
  | cons head tail ih =>
    rw [takeOut, List.map_cons, ih]
    refine congrArg₂ List.cons ?_ (List.map_congr_left fun l _ => congrArg (Prod.mk l) ?_)
    · cases source.contains head <;> simp
    · by_cases same : head = l
      · subst same
        cases source.contains head <;> simp
      · have apart : (compare head l == .eq) = false := by simpa using same
        cases source.contains head <;> simp [Std.ExtTreeSet.contains_erase, bne, apart]

theorem takeOutLeft (removed source : Std.ExtTreeSet SourceLocation)
    (locations : List SourceLocation) (l : SourceLocation) :
    l ∈ (takeOut removed source locations).2 ↔ l ∈ source ∧ l ∉ locations := by
  induction locations generalizing removed source with
  | nil => simp [takeOut]
  | cons head tail ih =>
    simp only [takeOut, ih, Std.ExtTreeSet.mem_erase, ne_eq, Std.LawfulEqCmp.compare_eq_iff_eq,
      List.mem_cons]
    simp only [not_or, eq_comm, and_assoc, and_left_comm]

theorem ofInsert (b : Breakpoints) (contract other : ContractHash) (s : BreakpointSet) :
    of (b.insert contract s) other = if contract = other then s else b.of other := by
  simp only [of, Std.ExtTreeMap.getElem?_insert, Std.LawfulEqCmp.compare_eq_iff_eq]
  split <;> rfl

theorem ofErase (b : Breakpoints) (contract other : ContractHash) :
    of (b.erase contract) other = if contract = other then {} else b.of other := by
  simp only [of, Std.ExtTreeMap.getElem?_erase, Std.LawfulEqCmp.compare_eq_iff_eq]
  split <;> rfl

theorem removeAssemblyLeaves (b : Breakpoints) (contract : ContractHash) (offsets : List Nat) :
    (b.removeAssembly contract offsets).2 = b ∨
      ∃ assembly, (b.removeAssembly contract offsets).2 =
        b.insert contract { b.of contract with assembly } := by
  unfold removeAssembly of
  cases b[contract]? with
  | none => exact .inl rfl
  | some s => exact .inr ⟨_,rfl⟩

theorem removeSourceLeaves (b : Breakpoints) (contract : ContractHash)
    (locations : List SourceLocation) :
    (b.removeSource contract locations).2 = b ∨
      ∃ source, (b.removeSource contract locations).2 =
        b.insert contract { b.of contract with source } := by
  unfold removeSource of
  cases b[contract]? with
  | none => exact .inl rfl
  | some s => exact .inr ⟨_,rfl⟩

end Breakpoints

end ScriptDebugger
