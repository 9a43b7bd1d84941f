import ScriptDebugger.Proofs.Ledger.Scanning

/-! What a ledger reads as. Layers are not seen in it: forks, flattened ledgers and the listing of
keys depend on the values read only, and a commit reads as the engine's ledger where its top layer
has an entry and as before elsewhere. -/
namespace ScriptDebugger.Snapshot

structure Alike (s t : Snapshot) : Prop where
  storage : ∀ key, s.get? key = t.get? key
  contracts : ∀ hash, s.contract? hash = t.contract? hash

theorem alikeRefl (s : Snapshot) : s.Alike s := ⟨fun _ => rfl,fun _ => rfl⟩

theorem alikeSymm {s t : Snapshot} (same : s.Alike t) : t.Alike s :=
  ⟨fun key => (same.storage key).symm,fun hash => (same.contracts hash).symm⟩

theorem alikeTrans {s t u : Snapshot} (first : s.Alike t) (second : t.Alike u) : s.Alike u :=
  ⟨fun key => (first.storage key).trans (second.storage key),
    fun hash => (first.contracts hash).trans (second.contracts hash)⟩

def under (s : Snapshot) : Snapshot := ⟨{},s.below⟩

theorem readTop (s : Snapshot) (key : StorageKey) :
    s.get? key = (s.top.storage[key]?).getD (s.under.get? key) := by
  simp only [get?, layers, under, List.findSome?_cons, Std.ExtTreeMap.getElem?_empty]
  cases s.top.storage[key]? <;> rfl

theorem readPut (s : Snapshot) (key other : StorageKey) (v : Bytes) :
    (s.put key v).get? other = if key = other then some v else s.get? other := by
  rw [readTop, readTop s]
  simp only [put, Std.ExtTreeMap.getElem?_insert, Std.LawfulEqCmp.compare_eq_iff_eq]
  split <;> rfl

theorem contractTop (s : Snapshot) (hash : ContractHash) :
    s.contract? hash = (s.top.contracts[hash]?).or (s.under.contract? hash) := by
  simp only [contract?, layers, under, List.findSome?_cons, Std.ExtTreeMap.getElem?_empty]
  cases s.top.contracts[hash]? <;> rfl

theorem readOver {s t : Snapshot} (top : s.top = t.top) (rest : s.under.Alike t.under) :
    s.Alike t := by
  refine ⟨fun key => ?_,fun hash => ?_⟩
  · rw [readTop s, readTop t, top, rest.storage]
  · rw [contractTop s, contractTop t, top, rest.contracts]

theorem forkAlike (s : Snapshot) : s.fork.Alike s := by
  refine ⟨fun key => ?_,fun hash => ?_⟩
  · simp [fork, get?, layers]
  · simp [fork, contract?, layers]

theorem readCommit (s target : Snapshot) (key : StorageKey) :
    (s.commitInto target).get? key = (s.top.storage[key]?).getD (target.get? key) := by
  rw [readTop (s.commitInto target), readTop target]
  simp only [commitInto, Layer.onto, Std.ExtTreeMap.getElem?_union]
  cases s.top.storage[key]? <;> rfl

theorem contractCommit (s target : Snapshot) (hash : ContractHash) :
    (s.commitInto target).contract? hash =
      (s.top.contracts[hash]?).or (target.contract? hash) := by
  rw [contractTop (s.commitInto target), contractTop target]
  simp only [commitInto, Layer.onto, Std.ExtTreeMap.getElem?_union]
  cases s.top.contracts[hash]? <;> rfl

section Touched

variable {s : Snapshot} {key : StorageKey} {hash : ContractHash}

theorem readUntouched (free : key ∉ s.top.storage) : s.get? key = s.under.get? key := by
  rw [readTop, Std.ExtTreeMap.getElem?_eq_none free]
  rfl

theorem contractUntouched (free : hash ∉ s.top.contracts) :
    s.contract? hash = s.under.contract? hash := by
  rw [contractTop, Std.ExtTreeMap.getElem?_eq_none free]
  rfl

theorem commitTouched (held : key ∈ s.top.storage) (target : Snapshot) :
    (s.commitInto target).get? key = s.get? key := by
  rw [readCommit, readTop s, Std.ExtTreeMap.getElem?_eq_some_getElem held]
  rfl

theorem commitUntouched (free : key ∉ s.top.storage) (target : Snapshot) :
    (s.commitInto target).get? key = target.get? key := by
  rw [readCommit, Std.ExtTreeMap.getElem?_eq_none free]
  rfl

theorem commitDeployed (held : hash ∈ s.top.contracts) (target : Snapshot) :
    (s.commitInto target).contract? hash = s.contract? hash := by
  rw [contractCommit, contractTop s, Std.ExtTreeMap.getElem?_eq_some_getElem held]
  rfl

theorem commitUndeployed (free : hash ∉ s.top.contracts) (target : Snapshot) :
    (s.commitInto target).contract? hash = target.contract? hash := by
  rw [contractCommit, Std.ExtTreeMap.getElem?_eq_none free]
  rfl

end Touched

theorem commitAlike {s t target other : Snapshot} (top : s.top = t.top)
    (same : target.Alike other) : (s.commitInto target).Alike (t.commitInto other) := by
  refine ⟨fun key => ?_,fun hash => ?_⟩
  · rw [readCommit, readCommit, top, same.storage]
  · rw [contractCommit, contractCommit, top, same.contracts]

theorem mergedStorage (s : Snapshot) (key : StorageKey) :
    s.merged.storage[key]? = s.layers.findSome? fun l => l.storage[key]? := by
  unfold merged
  induction s.layers with
  | nil => rfl
  | cons l rest ih =>
    rw [List.foldr_cons, Layer.onto, Std.ExtTreeMap.getElem?_union, ih, List.findSome?_cons]
    cases l.storage[key]? <;> rfl

theorem mergedContracts (s : Snapshot) (hash : ContractHash) :
    s.merged.contracts[hash]? = s.contract? hash := by
  unfold merged contract?
  induction s.layers with
  | nil => rfl
  | cons l rest ih =>
    rw [List.foldr_cons, Layer.onto, Std.ExtTreeMap.getElem?_union, ih, List.findSome?_cons]
    cases l.contracts[hash]? <;> rfl

theorem flattenAlike (s : Snapshot) : s.flatten.Alike s := by
  refine ⟨fun key => ?_,fun hash => ?_⟩
  · have read : s.get? key = (s.merged.storage[key]?).join := by rw [mergedStorage]; rfl
    rw [readTop, read]
    simp only [flatten, Std.ExtTreeMap.getElem?_filter']
    rcases s.merged.storage[key]? with _ | (_ | v) <;> rfl
  · rw [contractTop, flatten, mergedContracts]
    exact Option.or_none

def listing (s : Snapshot) (contract : ContractHash) (start : Bytes) : Std.ExtTreeMap Bytes Bytes :=
  (s.scanned contract start).filterMap fun _ v => v

theorem findListing (s : Snapshot) (contract : ContractHash) (start : Bytes) :
    s.find contract start = (s.listing contract start).toList := by
  rw [listing, Std.ExtTreeMap.toList_filterMap]
  rfl

theorem listingRead (s : Snapshot) (contract : ContractHash) (start key : Bytes) :
    (s.listing contract start)[key]? =
      if start.isPrefixOf key then s.get? ⟨contract,key⟩ else none := by
  rw [listing, Std.ExtTreeMap.getElem?_filterMap', scannedRead]
  split <;> rfl

theorem findAlike {s t : Snapshot} (same : s.Alike t) (contract : ContractHash) (start : Bytes) :
    s.find contract start = t.find contract start := by
  have listings : s.listing contract start = t.listing contract start := by
    apply Std.ExtTreeMap.ext_getElem?
    intro key
    rw [listingRead, listingRead, same.storage]
  rw [findListing, findListing, listings]

end ScriptDebugger.Snapshot
