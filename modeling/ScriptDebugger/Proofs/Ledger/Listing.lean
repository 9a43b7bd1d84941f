import ScriptDebugger.Proofs.Ledger.Reading

/-! The listing of a ledger against its single reads, on any number of layers. What is listed is what is
read, by ascending keys, and no mark of a deletion lets a value below it through. A flattened ledger
has one layer and cannot be told from the ledger it was made of. -/
namespace ScriptDebugger

theorem Bytes.compareLess (a b : Bytes) : compare a b = .lt ↔ a < b := by
  induction a generalizing b with
  | nil => cases b <;> simp
  | cons head rest ih =>
    cases b with
    | nil => simp
    | cons first others =>
      rw [List.compare_cons_cons, Ordering.then_eq_lt, List.cons_lt_cons_iff, ih]
      exact or_congr Std.compare_eq_lt (and_congr_left fun _ => Std.LawfulEqOrd.compare_eq_iff_eq)

namespace Snapshot

theorem findListed (s : Snapshot) (contract : ContractHash) (start key v : Bytes) :
    (key,v) ∈ s.find contract start ↔ start <+: key ∧ s.get? ⟨contract,key⟩ = some v := by
  rw [findListing, Std.ExtTreeMap.mem_toList_iff_getElem?_eq_some, listingRead,
    ← List.isPrefixOf_iff_prefix]
  split
  · next begins => exact (and_iff_right begins).symm
  · next other => exact iff_of_false nofun fun both => other both.1

theorem findAscending (s : Snapshot) (contract : ContractHash) (start : Bytes) :
    (s.find contract start).Pairwise fun a b => a.1 < b.1 := by
  rw [findListing]
  exact Std.ExtTreeMap.ordered_keys_toList.imp (Bytes.compareLess _ _).mp

theorem readUppermost {s : Snapshot} {above below : List Layer} {l : Layer} {key : StorageKey}
    {entry : Option Bytes} (layers : s.layers = above ++ l :: below)
    (unwritten : ∀ upper ∈ above, key ∉ upper.storage) (held : l.storage[key]? = some entry) :
    s.get? key = entry := by
  have passed : above.findSome? (fun upper => upper.storage[key]?) = none :=
    List.findSome?_eq_none_iff.mpr fun upper listed =>
      Std.ExtTreeMap.getElem?_eq_none (unwritten upper listed)
  rw [get?, layers, List.findSome?_append, passed, List.findSome?_cons, held]
  rfl

theorem listsWhatIsRead (s : Snapshot) :
    (∀ contract start,
      ((s.find contract start).Pairwise fun a b => a.1 < b.1) ∧
      ∀ key v, (key,v) ∈ s.find contract start ↔
        start <+: key ∧ s.get? ⟨contract,key⟩ = some v) ∧
    (∀ above l below key, s.layers = above ++ l :: below →
      (∀ upper ∈ above, key ∉ upper.storage) → l.storage[key]? = some none →
      s.get? key = none ∧ ∀ start v, (key.key,v) ∉ s.find key.contract start) ∧
    s.flatten.depth = 1 ∧
    (∀ key, s.flatten.get? key = s.get? key) ∧
    (∀ contract start, s.flatten.find contract start = s.find contract start) ∧
    ∀ hash, s.flatten.contract? hash = s.contract? hash := by
  have flat := flattenAlike s
  refine ⟨fun contract start => ⟨findAscending s contract start,findListed s contract start⟩,?_,rfl,
    flat.storage,findAlike flat,flat.contracts⟩
  intro above l below key layers unwritten deleted
  have gone := readUppermost layers unwritten deleted
  refine ⟨gone,fun start v listed => ?_⟩
  rw [findListed, gone] at listed
  exact nomatch listed.2

end Snapshot

end ScriptDebugger
