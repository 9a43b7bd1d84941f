import ScriptDebugger.Proofs.Machine.Distance
import ScriptDebugger.Proofs.Stepping.Coverage

/-! Runs cover what they visit. On the way from one engine to another every instruction is marked for
the contract and the offset that the top frame stands at before it, so a command raises the flags of
the places it has visited, of those that are tracked, and no others. -/
namespace ScriptDebugger

namespace Engine

def StandsAt (e : Engine) (contract : ContractHash) (offset : Nat) : Prop :=
  ∃ f, e.frames.head? = some f ∧ f.contract = contract ∧ f.position = offset

-- An instruction on the way to the other engine was taken from there.
def Visits (e after : Engine) (contract : ContractHash) (offset : Nat) : Prop :=
  ∃ n, Leads n e after ∧ ∃ k < n, (executeNext^[k] e.awake).StandsAt contract offset

variable {e between after : Engine} {contract : ContractHash} {offset : Nat}

theorem standsAwake : e.awake.StandsAt contract offset ↔ e.StandsAt contract offset := by
  unfold awake
  split <;> exact Iff.rfl

theorem visitsNone (same : Leads 0 e after) : ¬ e.Visits after contract offset := by
  rintro ⟨n,leads,k,below,_⟩
  have none := leadsOnce same leads
  omega

theorem visitsStep (alive : e.state.isTerminal = false) :
    e.Visits e.executeNext contract offset ↔ e.StandsAt contract offset := by
  have one := leadsStep alive
  constructor
  · rintro ⟨n,leads,k,below,stands⟩
    obtain rfl : 1 = n := leadsOnce one leads
    obtain rfl : k = 0 := Nat.lt_one_iff.mp below
    exact standsAwake.mp stands
  · exact fun stands => ⟨1,one,0,Nat.one_pos,standsAwake.mpr stands⟩

theorem visitsThen {m n : Nat} (first : Leads m e between) (second : Leads n between after) :
    e.Visits after contract offset ↔
      e.Visits between contract offset ∨ between.Visits after contract offset := by
  have whole := leadsThen first second
  have onward (j : Nat) : executeNext^[j + m] e.awake = executeNext^[j] between.awake := by
    rw [first.reached, ← Function.iterate_add_apply]
  constructor
  · rintro ⟨_,leads,k,below,stands⟩
    cases leadsOnce whole leads
    by_cases early : k < m
    · exact .inl ⟨m,first,k,early,stands⟩
    · obtain ⟨j,rfl⟩ := Nat.exists_eq_add_of_le' (Nat.not_lt.mp early)
      exact .inr ⟨n,second,j,by omega,onward j ▸ stands⟩
  · rintro (⟨_,leads,k,below,stands⟩ | ⟨_,leads,k,below,stands⟩)
    · cases leadsOnce first leads
      exact ⟨_,whole,k,by omega,stands⟩
    · cases leadsOnce second leads
      exact ⟨_,whole,k + m,by omega,(onward k).symm ▸ stands⟩

end Engine

namespace Coverage

def flag? (coverage : Coverage) (contract : ContractHash) (offset : Nat) : Option Bool :=
  coverage[contract]?.bind fun flags => flags[offset]?

theorem flagMark (coverage : Coverage) (marked contract : ContractHash) (place offset : Nat) :
    (coverage.mark marked place).flag? contract offset =
      if marked = contract ∧ place = offset then (coverage.flag? contract offset).map fun _ => true
      else coverage.flag? contract offset := by
  unfold flag? mark
  rw [Std.ExtTreeMap.getElem?_modify]
  by_cases own : marked = contract
  · subst own
    rw [if_pos Std.ReflCmp.compare_self]
    cases coverage[marked]? with
    | none => simp
    | some flags =>
      by_cases here : place = offset
      · subst here
        simp
      · simp [Std.ExtTreeMap.getElem?_modify, here]
  · rw [if_neg (by simpa using own), if_neg fun both => own both.1]

-- The flags of the places that were visited are up, the others are as they were.
structure Records (before after : Coverage) (visited : ContractHash → Nat → Prop) : Prop where
  tracked (contract : ContractHash) (offset : Nat) :
    (after.flag? contract offset).isSome = (before.flag? contract offset).isSome
  raised (contract : ContractHash) (offset : Nat) :
    after.flag? contract offset = some true ↔
      before.flag? contract offset = some true ∨
        (before.flag? contract offset).isSome = true ∧ visited contract offset

theorem recordsNone {coverage : Coverage} {visited : ContractHash → Nat → Prop}
    (none : ∀ contract offset, ¬ visited contract offset) : Records coverage coverage visited :=
  ⟨fun _ _ => rfl,fun contract offset => by simp [none contract offset]⟩

theorem recordsAs {before after : Coverage} {visited reached : ContractHash → Nat → Prop}
    (same : ∀ contract offset, visited contract offset ↔ reached contract offset)
    (records : Records before after visited) : Records before after reached :=
  ⟨records.tracked,fun contract offset => by rw [records.raised, same]⟩

theorem recordsThen {before between after : Coverage} {first second : ContractHash → Nat → Prop}
    (one : Records before between first) (two : Records between after second) :
    Records before after fun contract offset => first contract offset ∨ second contract offset := by
  refine ⟨fun contract offset => ?_,fun contract offset => ?_⟩
  · rw [two.tracked, one.tracked]
  · rw [two.raised, one.raised, one.tracked, or_assoc, ← and_or_left]

theorem recordsMark (coverage : Coverage) (contract : ContractHash) (offset : Nat) :
    Records coverage (coverage.mark contract offset) fun other place =>
      contract = other ∧ offset = place := by
  refine ⟨fun other place => ?_,fun other place => ?_⟩ <;> rw [flagMark]
  · split
    · rw [Option.isSome_map]
    · rfl
  · split
    · next here => cases coverage.flag? other place <;> simp [here]
    · next apart => simp [apart]

end Coverage

namespace Run

open Engine (Leads)

structure Marks (run next : Run) : Prop where
  leads : ∃ n, Leads n run.engine next.engine
  records : run.coverage.Records next.coverage (run.engine.Visits next.engine)

theorem marksStep {run : Run} (alive : run.engine.state.isTerminal = false) :
    Marks run run.step := by
  refine ⟨⟨1,Engine.leadsStep alive⟩,?_⟩
  apply Coverage.recordsAs fun contract offset => (Engine.visitsStep alive).symm
  unfold step
  cases top : run.engine.frames.head? with
  | none =>
    refine Coverage.recordsNone fun contract offset => ?_
    rintro ⟨f,found,_⟩
    rw [top] at found
    contradiction
  | some f =>
    refine Coverage.recordsAs (fun contract offset => ?_)
      (Coverage.recordsMark run.coverage f.contract f.position)
    simp [Engine.StandsAt, top]

theorem marksClosed : Closed Marks where
  refl run :=
    ⟨⟨0,Engine.leadsNone rfl⟩,Coverage.recordsNone fun _ _ => Engine.visitsNone (Engine.leadsNone rfl)⟩
  trans first second := by
    obtain ⟨⟨m,leads⟩,early⟩ := first
    obtain ⟨⟨n,onward⟩,late⟩ := second
    exact ⟨⟨m + n,Engine.leadsThen leads onward⟩,
      Coverage.recordsAs (fun _ _ => (Engine.visitsThen leads onward).symm)
        (Coverage.recordsThen early late)⟩
  step := marksStep
  state {run state} alive other := by
    have still : Leads 0 run.engine (run.engine.setState state) :=
      Engine.leadsNone (Engine.awakeSetState alive other)
    exact ⟨⟨0,still⟩,Coverage.recordsNone fun _ _ => Engine.visitsNone still⟩

end Run

end ScriptDebugger
