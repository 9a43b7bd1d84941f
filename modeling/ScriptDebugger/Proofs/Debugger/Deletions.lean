import ScriptDebugger.Proofs.Debugger.Failures
import ScriptDebugger.Proofs.Registry.Consistency

/-! Deletions of several contracts or sessions at once. Whatever was listed is gone afterwards and nothing
else is touched. A key listed once is reported as it was found; one listed again is reported as missing,
since its last mention comes after it was taken out. -/
namespace ScriptDebugger

-- What is reported of a key that is listed so many times.
def reported (existed : Bool) : Nat → Option Bool
  | 0 => none
  | 1 => some existed
  | _ + 2 => some false

theorem reportedMissing (count : Nat) :
    reported false count = if count = 0 then none else some false := by
  match count with
  | 0 | 1 | _ + 2 => rfl

section Collected

variable {κ σ : Type} [Ord κ] [Std.TransOrd κ] [DecidableEq κ]

-- The answer to the last mention stays, and it was asked of what the mentions before had left.
theorem reportsCollected [Std.LawfulEqOrd κ] (held : σ → κ → Bool) (drop : σ → κ → σ)
    (dropped : ∀ t gone key, held (drop t gone) key = (held t key && decide (gone ≠ key)))
    (t : σ) (keys : List κ) (answers : Std.ExtTreeMap κ Bool) (key : κ) :
    (keys.foldl (fun (answers,t) key => (answers.insert key (held t key),drop t key))
      (answers,t)).1[key]? = (reported (held t key) (keys.count key)).or answers[key]? := by
  induction keys generalizing t answers with
  | nil => rfl
  | cons head tail ih =>
    rw [List.foldl_cons, ih, dropped, Std.ExtTreeMap.getElem?_insert, List.count_cons]
    by_cases same : head = key
    · subst same
      simp only [ne_eq, not_true_eq_false, decide_false, Bool.and_false, reportedMissing,
        Std.LawfulEqCmp.compare_eq_iff_eq, if_true, beq_self_eq_true]
      cases tail.count head <;> rfl
    · simp [same]

theorem reportsRight {existed : κ → Bool} {keys : List κ} {answers : Std.ExtTreeMap κ Bool}
    (reports : ∀ key, answers[key]? = reported (existed key) (keys.count key)) :
    (∀ key ∈ keys, answers[key]? = some (existed key)) ↔
      ∀ key, existed key = true → keys.count key ≤ 1 := by
  constructor
  · intro right key there
    by_contra again
    have listed : key ∈ keys := List.count_pos_iff.mp (by omega)
    obtain ⟨more,count⟩ : ∃ more, keys.count key = more + 2 := ⟨keys.count key - 2,by omega⟩
    have told := right key listed
    rw [reports, count, there] at told
    simp [reported] at told
  · intro once key listed
    have some := List.count_pos_iff.mpr listed
    rw [reports]
    cases there : existed key with
    | false => rw [reportedMissing, if_neg (by omega)]
    | true =>
      have count : keys.count key = 1 := Nat.le_antisymm (once key there) some
      rw [count]
      rfl

end Collected

namespace Registry

structure Forgotten (r : Registry) (contract : ContractHash) : Prop where
  profile : r.profile? contract = none
  breakpoints : r.breakpoints[contract]? = none
  coverage : r.coverage[contract]? = none

theorem forgetForgotten (r : Registry) (contract : ContractHash) :
    (r.forget contract).Forgotten contract := by
  constructor <;> simp [forget, profile?]

theorem forgottenOnward {r next : Registry} {contract : ContractHash} (gone : r.Forgotten contract)
    (untouched : r.Untouched next contract) : next.Forgotten contract :=
  ⟨untouched.1.trans gone.profile,untouched.2.1.trans gone.breakpoints,
    untouched.2.2.trans gone.coverage⟩

theorem forgottenAll (r : Registry) {contracts : List ContractHash} {contract : ContractHash}
    (listed : contract ∈ contracts) : (contracts.foldl forget r).Forgotten contract := by
  induction contracts generalizing r with
  | nil => contradiction
  | cons head tail ih =>
    by_cases later : contract ∈ tail
    · exact ih (r.forget head) later
    · have same : contract = head := (List.mem_cons.mp listed).resolve_right later
      subst same
      exact forgottenOnward (forgetForgotten r contract) (changedUntouched .forgotten later)

theorem forgetHeld (r : Registry) (gone contract : ContractHash) :
    ((r.forget gone).profile? contract).isSome =
      ((r.profile? contract).isSome && decide (gone ≠ contract)) := by
  by_cases same : gone = contract <;> simp [forget, profile?, Std.ExtTreeMap.getElem?_erase, same]

theorem deletionReports (r : Registry) (contracts : List ContractHash) (contract : ContractHash) :
    (r.deleteDebugInfo contracts).1[contract]? =
      reported (r.profile? contract).isSome (contracts.count contract) := by
  have collected := reportsCollected (fun r contract => (r.profile? contract).isSome) forget
    forgetHeld r contracts ∅ contract
  rwa [Std.ExtTreeMap.getElem?_empty, Option.or_none] at collected

end Registry

namespace SessionTable

theorem dropHeld (t : SessionTable) (gone name : String) :
    (t.drop gone).sessions.contains name =
      (t.sessions.contains name && decide (gone ≠ name)) := by
  rw [containsLookup, containsLookup, lookupDrop]
  by_cases same : gone = name <;> simp [same]

theorem deletionReports (t : SessionTable) (names : List String) (name : String) :
    (t.delete names).1[name]? = reported (t.sessions[name]?).isSome (names.count name) := by
  have collected := reportsCollected (fun t name => t.sessions.contains name) drop dropHeld t
    names ∅ name
  rwa [Std.ExtTreeMap.getElem?_empty, Option.or_none, containsLookup] at collected

end SessionTable

namespace Debugger

theorem handleDeletion (d : Debugger) (contracts : List ContractHash) :
    d.handle (.registry (.deleteDebugInfo contracts)) =
      (.ok (.forgotten (d.registry.deleteDebugInfo contracts).1),
        { d with registry := contracts.foldl Registry.forget d.registry }) := by
  rw [handleRegistry, ← Registry.deletedFrom d.registry contracts ∅]
  rfl

-- Asked of any debugger and any list. Where an existing key is listed again, and only there, the report
-- is not what existed before.
theorem deletionsReport (d : Debugger) :
    (∀ contracts, ∃ answers registry,
      d.handle (.registry (.deleteDebugInfo contracts)) =
        (.ok (.forgotten answers),{ d with registry }) ∧
      (∀ contract, answers[contract]? =
        reported (d.registry.profile? contract).isSome (contracts.count contract)) ∧
      ((∀ contract ∈ contracts, answers[contract]? = some (d.registry.profile? contract).isSome) ↔
        ∀ contract, (d.registry.profile? contract).isSome → contracts.count contract ≤ 1) ∧
      (∀ contract ∈ contracts, registry.Forgotten contract) ∧
      ∀ contract ∉ contracts, d.registry.Untouched registry contract) ∧
    ∀ names, ∃ answers e,
      d.handle (.deleteSessions names) = (.ok (.existed answers),e) ∧
      (∀ name, answers[name]? = reported (d.session? name).isSome (names.count name)) ∧
      ((∀ name ∈ names, answers[name]? = some (d.session? name).isSome) ↔
        ∀ name, (d.session? name).isSome → names.count name ≤ 1) ∧
      (∀ name ∈ names, e.session? name = none) ∧ d.SameBut names e := by
  refine ⟨fun contracts => ?_,fun names => ?_⟩
  · have reports := d.registry.deletionReports contracts
    exact ⟨_,_,d.handleDeletion contracts,reports,reportsRight reports,
      fun _ => d.registry.forgottenAll,fun _ => Registry.changedUntouched .forgotten⟩
  · have reports := d.table.deletionReports names
    obtain ⟨chain,defaults,lookups⟩ := d.table.lookupDelete names
    refine ⟨_,_,d.handleDeleteSessions names,reports,reportsRight reports,fun name listed => ?_,
      rfl,rfl,chain,defaults,fun name elsewhere => ?_⟩
    · exact (lookups name).trans (if_pos listed)
    · exact (lookups name).trans (if_neg elsewhere)

-- A contract that is known and a session that exists, each deleted by a list that names it twice.
theorem repeatedDeletionDenied :
    let d := ((Debugger.create .empty {}).serve
      [.newSessions ["a"],.registry (.setDebugInfo .zero "\x7b\x7d" "")]).2
    (d.session? "a").isSome ∧ (d.registry.profile? .zero).isSome ∧
      (∃ answers, (d.handle (.deleteSessions ["a","a"])).1 = .ok (.existed answers) ∧
        answers["a"]? = some false) ∧
      ∃ answers, (d.handle (.registry (.deleteDebugInfo [.zero,.zero]))).1 =
        .ok (.forgotten answers) ∧ answers[ContractHash.zero]? = some false := by
  intro d
  refine ⟨by decide +kernel,by decide +kernel,⟨_,rfl,?_⟩,⟨_,rfl,?_⟩⟩
  · exact d.table.deletionReports ["a","a"] "a"
  · exact d.registry.deletionReports [.zero,.zero] .zero

end Debugger

end ScriptDebugger
