import ScriptDebugger.Ledger

/-! Keys of one contract that begin alike lie together: between the first key that could be one and any
that is there are no others. So a scan of a layer that ends at the first other key has met them all, and
what the scans of all layers come to is under each of these keys the uppermost entry. -/
namespace ScriptDebugger

namespace Bytes

variable {start key later : Bytes}

theorem beginsReached (begins : start <+: key) : (compare start key).isLE = true := by
  induction start generalizing key with
  | nil => exact List.isLE_compare_nil_left
  | cons head rest ih =>
    obtain ⟨after,rfl⟩ := begins
    rw [List.cons_append, List.compare_cons_cons, Std.ReflOrd.compare_self]
    exact ih (List.prefix_append rest after)

-- Both orders hold at the first byte, which is therefore the same in all three.
theorem beginsBetween (reached : (compare start key).isLE = true) (earlier : compare key later = .lt)
    (begins : start <+: later) : start <+: key := by
  induction start generalizing key later with
  | nil => exact List.nil_prefix
  | cons head rest ih =>
    obtain ⟨after,rfl⟩ := begins
    cases key with
    | nil => contradiction
    | cons first others =>
      rw [List.compare_cons_cons] at reached
      rw [List.cons_append, List.compare_cons_cons] at earlier
      have same : head = first := by
        cases order : compare head first with
        | eq => exact Std.LawfulEqOrd.eq_of_compare order
        | lt =>
          rw [Std.OrientedOrd.eq_swap, order] at earlier
          contradiction
        | gt =>
          rw [order] at reached
          contradiction
      subst same
      rw [Std.ReflOrd.compare_self] at reached earlier
      exact List.cons_prefix_cons.mpr ⟨rfl,ih reached earlier (List.prefix_append rest after)⟩

end Bytes

namespace StorageKey

def Begins (contract : ContractHash) (start : Bytes) (key : StorageKey) : Prop :=
  key.contract = contract ∧ start <+: key.key

variable {contract : ContractHash} {start : Bytes} {key later : StorageKey}

theorem compareKeys (a b : StorageKey) :
    compare a b = (compare a.contract b.contract).then (compare a.key b.key) := rfl

theorem beginsReached (begins : key.Begins contract start) :
    (compare ⟨contract,start⟩ key).isLE = true := by
  obtain ⟨own,begins⟩ := begins
  rw [compareKeys, own, Std.ReflOrd.compare_self]
  exact Bytes.beginsReached begins

theorem beginsBetween (reached : (compare ⟨contract,start⟩ key).isLE = true)
    (earlier : compare key later = .lt) (begins : later.Begins contract start) :
    key.Begins contract start := by
  obtain ⟨own,begins⟩ := begins
  rw [compareKeys] at reached earlier
  rw [own] at earlier
  have same : contract = key.contract := by
    cases order : compare contract key.contract with
    | eq => exact Std.LawfulEqOrd.eq_of_compare order
    | lt =>
      rw [Std.OrientedOrd.eq_swap, order] at earlier
      contradiction
    | gt =>
      rw [order] at reached
      contradiction
  subst same
  rw [Std.ReflOrd.compare_self] at reached earlier
  exact ⟨rfl,Bytes.beginsBetween reached earlier begins⟩

end StorageKey

theorem takenWhile {α : Type} {xs : List α} {p : α → Bool}
    (closed : xs.Pairwise fun a b => p b = true → p a = true) : xs.takeWhile p = xs.filter p := by
  induction xs with
  | nil => rfl
  | cons head rest ih =>
    obtain ⟨first,closed⟩ := List.pairwise_cons.mp closed
    cases passes : p head with
    | true => rw [List.takeWhile_cons_of_pos passes, List.filter_cons_of_pos passes, ih closed]
    | false =>
      have none : ∀ other ∈ rest, ¬ p other = true := fun other listed passed => by
        simp [first other listed passed] at passes
      rw [List.takeWhile_cons_of_neg (by simp [passes]), List.filter_cons_of_neg (by simp [passes]),
        List.filter_eq_nil_iff.mpr none]

namespace Layer

variable (l : Layer) (contract : ContractHash) (start : Bytes)

def Listed (entry : StorageKey × Option Bytes) : Bool :=
  entry.1.contract = contract ∧ start.isPrefixOf entry.1.key

theorem listedBegins {entry : StorageKey × Option Bytes} :
    Listed contract start entry = true ↔ entry.1.Begins contract start := by
  simp [Listed, StorageKey.Begins]

theorem scanWhole : l.scan contract start =
    (l.storage.toList.filter (Listed contract start)).map fun (key,v) => (key.key,v) := by
  have ordered := (Std.ExtTreeMap.ordered_keys_toList (t := l.storage)).filter
    fun entry => (compare ⟨contract,start⟩ entry.1).isLE
  have closed : (l.onward ⟨contract,start⟩).Pairwise fun a b =>
      Listed contract start b = true → Listed contract start a = true := by
    refine ordered.imp_of_mem fun reached _ earlier begins => ?_
    rw [listedBegins] at begins ⊢
    exact StorageKey.beginsBetween (List.mem_filter.mp reached).2 earlier begins
  have reached : (l.onward ⟨contract,start⟩).filter (Listed contract start) =
      l.storage.toList.filter (Listed contract start) := by
    rw [onward, List.filter_filter]
    refine List.filter_congr fun entry _ => ?_
    cases listed : Listed contract start entry with
    | false => rfl
    | true => exact StorageKey.beginsReached ((listedBegins contract start).mp listed)
  exact congrArg _ ((takenWhile closed).trans reached)

theorem scanListed (key : Bytes) (v : Option Bytes) :
    (key,v) ∈ l.scan contract start ↔
      start <+: key ∧ l.storage[(⟨contract,key⟩ : StorageKey)]? = some v := by
  simp only [scanWhole, List.mem_map, List.mem_filter, listedBegins]
  constructor
  · rintro ⟨⟨⟨own,_⟩,_⟩,⟨held,rfl,begins⟩,same⟩
    cases same
    exact ⟨begins,Std.ExtTreeMap.mem_toList_iff_getElem?_eq_some.mp held⟩
  · rintro ⟨begins,held⟩
    exact ⟨(⟨contract,key⟩,v),⟨Std.ExtTreeMap.mem_toList_iff_getElem?_eq_some.mpr held,rfl,begins⟩,rfl⟩

theorem scanOrdered : (l.scan contract start).Pairwise fun a b => compare a.1 b.1 = .lt := by
  rw [scanWhole, List.pairwise_map]
  refine (Std.ExtTreeMap.ordered_keys_toList.filter _).imp_of_mem fun one two earlier => ?_
  have one := (listedBegins contract start).mp (List.mem_filter.mp one).2
  have two := (listedBegins contract start).mp (List.mem_filter.mp two).2
  rwa [StorageKey.compareKeys, one.1, two.1, Std.ReflOrd.compare_self] at earlier

end Layer

namespace Snapshot

theorem scannedOver (l : Layer) (found : Std.ExtTreeMap Bytes (Option Bytes))
    (contract : ContractHash) (start key : Bytes) :
    (found.insertMany (l.scan contract start))[key]? =
      if start.isPrefixOf key then (l.storage[(⟨contract,key⟩ : StorageKey)]?).or found[key]?
      else found[key]? := by
  have listed (v : Option Bytes) := l.scanListed contract start key v
  have absent (none : ∀ v, (key,v) ∉ l.scan contract start) :
      (found.insertMany (l.scan contract start))[key]? = found[key]? := by
    apply Std.ExtTreeMap.getElem?_insertMany_list_of_contains_eq_false
    simpa using none
  by_cases begins : start <+: key
  · rw [if_pos (List.isPrefixOf_iff_prefix.mpr begins)]
    cases held : l.storage[(⟨contract,key⟩ : StorageKey)]? with
    | none =>
      refine absent fun v scanned => ?_
      have entry := ((listed v).mp scanned).2
      rw [held] at entry
      contradiction
    | some v =>
      have distinct : (l.scan contract start).Pairwise fun a b => ¬ compare a.1 b.1 = .eq :=
        (l.scanOrdered contract start).imp fun earlier same => nomatch earlier.symm.trans same
      exact Std.ExtTreeMap.getElem?_insertMany_list_of_mem Std.ReflOrd.compare_self distinct
        ((listed v).mpr ⟨begins,held⟩)
  · rw [if_neg (mt List.isPrefixOf_iff_prefix.mp begins)]
    exact absent fun v scanned => begins ((listed v).mp scanned).1

theorem scannedRead (s : Snapshot) (contract : ContractHash) (start key : Bytes) :
    (s.scanned contract start)[key]? =
      if start.isPrefixOf key then s.layers.findSome? fun l => l.storage[(⟨contract,key⟩ : StorageKey)]?
      else none := by
  unfold scanned
  induction s.layers with
  | nil => simp
  | cons l rest ih =>
    rw [List.foldr_cons, scannedOver, ih, List.findSome?_cons]
    split
    · cases l.storage[(⟨contract,key⟩ : StorageKey)]? <;> rfl
    · rfl

end Snapshot

end ScriptDebugger
