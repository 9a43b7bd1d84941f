import ScriptDebugger.Proofs.Ledger.Listing

/-! Writes to a fork, and what a commit of it leaves. A fork's own layer has an entry for each key and
each contract that was written and for no others, deletions included, and what lies below it is never
changed. So the base of a fork reads as the fork once that is committed, and a base that has gone on
without it keeps all that the fork did not write. -/
namespace ScriptDebugger

inductive Edit where
  | put (key : StorageKey) (v : Bytes)
  | delete (key : StorageKey)
  | deploy (c : Contract)

namespace Edit

def key? : Edit → Option StorageKey
  | put key _ | delete key => some key
  | deploy _ => none

def hash? : Edit → Option ContractHash
  | put _ _ | delete _ => none
  | deploy c => some c.hash

end Edit

namespace Snapshot

def edit (s : Snapshot) : Edit → Snapshot
  | .put key v => s.put key v
  | .delete key => s.delete key
  | .deploy c => s.deploy c

def edited (s : Snapshot) (edits : List Edit) : Snapshot := edits.foldl edit s

-- `s` with entries for these keys and contracts in its own layer, and nothing else changed.
structure Wrote (s : Snapshot) (edits : List Edit) (t : Snapshot) : Prop where
  below : t.below = s.below
  storage (key : StorageKey) :
    key ∈ t.top.storage ↔ key ∈ s.top.storage ∨ key ∈ edits.filterMap Edit.key?
  contracts (hash : ContractHash) :
    hash ∈ t.top.contracts ↔ hash ∈ s.top.contracts ∨ hash ∈ edits.filterMap Edit.hash?

theorem wroteOne (s : Snapshot) (e : Edit) : s.Wrote [e] (s.edit e) := by
  cases e with
  | put key v | delete key =>
    refine ⟨rfl,fun other => ?_,fun hash => (or_iff_left List.not_mem_nil).symm⟩
    refine Std.ExtTreeMap.mem_insert.trans ?_
    rw [Std.LawfulEqCmp.compare_eq_iff_eq, or_comm]
    exact or_congr_right (eq_comm.trans List.mem_singleton.symm)
  | deploy c =>
    refine ⟨rfl,fun key => (or_iff_left List.not_mem_nil).symm,fun other => ?_⟩
    refine Std.ExtTreeMap.mem_insert.trans ?_
    rw [Std.LawfulEqCmp.compare_eq_iff_eq, or_comm]
    exact or_congr_right (eq_comm.trans List.mem_singleton.symm)

theorem wroteThen {s t u : Snapshot} {first second : List Edit} (one : s.Wrote first t)
    (two : t.Wrote second u) : s.Wrote (first ++ second) u := by
  refine ⟨two.below.trans one.below,fun key => ?_,fun hash => ?_⟩
  · rw [two.storage, one.storage, List.filterMap_append, List.mem_append, or_assoc]
  · rw [two.contracts, one.contracts, List.filterMap_append, List.mem_append, or_assoc]

theorem wroteAll (s : Snapshot) (edits : List Edit) : s.Wrote edits (s.edited edits) := by
  induction edits generalizing s with
  | nil => exact ⟨rfl,fun key => by simp [edited],fun hash => by simp [edited]⟩
  | cons e rest ih => exact wroteThen (wroteOne s e) (ih (s.edit e))

structure WroteFork (base : Snapshot) (edits : List Edit) (fork : Snapshot) : Prop where
  under : fork.under.Alike base
  storage (key : StorageKey) : key ∈ fork.top.storage ↔ key ∈ edits.filterMap Edit.key?
  contracts (hash : ContractHash) : hash ∈ fork.top.contracts ↔ hash ∈ edits.filterMap Edit.hash?

theorem wroteFork (base : Snapshot) (edits : List Edit) :
    base.WroteFork edits (base.fork.edited edits) := by
  obtain ⟨below,storage,contracts⟩ := wroteAll base.fork edits
  refine ⟨?_,fun key => ?_,fun hash => ?_⟩
  · rw [under, below]
    exact forkAlike base
  · exact (storage key).trans (or_iff_right Std.ExtTreeMap.not_mem_empty)
  · exact (contracts hash).trans (or_iff_right Std.ExtTreeMap.not_mem_empty)

section Commit

variable {base fork : Snapshot} {edits : List Edit}

theorem commitMixed (wrote : base.WroteFork edits fork) (changed : Snapshot) (key : StorageKey) :
    (fork.commitInto changed).get? key =
      if key ∈ edits.filterMap Edit.key? then fork.get? key else changed.get? key := by
  split
  · next touched => exact commitTouched ((wrote.storage key).mpr touched) changed
  · next free => exact commitUntouched (mt (wrote.storage key).mp free) changed

theorem commitMixedContracts (wrote : base.WroteFork edits fork) (changed : Snapshot)
    (hash : ContractHash) :
    (fork.commitInto changed).contract? hash =
      if hash ∈ edits.filterMap Edit.hash? then fork.contract? hash
      else changed.contract? hash := by
  split
  · next touched => exact commitDeployed ((wrote.contracts hash).mpr touched) changed
  · next free => exact commitUndeployed (mt (wrote.contracts hash).mp free) changed

theorem forkKeeps (wrote : base.WroteFork edits fork) {key : StorageKey}
    (free : key ∉ edits.filterMap Edit.key?) : fork.get? key = base.get? key :=
  (readUntouched (mt (wrote.storage key).mp free)).trans (wrote.under.storage key)

theorem forkKeepsContracts (wrote : base.WroteFork edits fork) {hash : ContractHash}
    (free : hash ∉ edits.filterMap Edit.hash?) : fork.contract? hash = base.contract? hash :=
  (contractUntouched (mt (wrote.contracts hash).mp free)).trans (wrote.under.contracts hash)

theorem commitRestores (wrote : base.WroteFork edits fork) : (fork.commitInto base).Alike fork := by
  refine ⟨fun key => ?_,fun hash => ?_⟩
  · rw [commitMixed wrote, ite_eq_left_iff]
    exact fun free => (forkKeeps wrote free).symm
  · rw [commitMixedContracts wrote, ite_eq_left_iff]
    exact fun free => (forkKeepsContracts wrote free).symm

end Commit

theorem commitReadsAsFork (base : Snapshot) (edits : List Edit) :
    let fork := base.fork.edited edits
    let stored := edits.filterMap Edit.key?
    let deployed := edits.filterMap Edit.hash?
    (fork.commitInto base).depth = base.depth ∧
    (∀ key, (fork.commitInto base).get? key = fork.get? key) ∧
    (∀ contract start,
      (fork.commitInto base).find contract start = fork.find contract start) ∧
    (∀ hash, (fork.commitInto base).contract? hash = fork.contract? hash) ∧
    (∀ key, key ∉ stored → (fork.commitInto base).get? key = base.get? key) ∧
    (∀ hash, hash ∉ deployed → (fork.commitInto base).contract? hash = base.contract? hash) ∧
    ∀ changed : Snapshot,
      let after := fork.commitInto changed
      after.depth = changed.depth ∧
      (∀ key, after.get? key = if key ∈ stored then fork.get? key else changed.get? key) ∧
      (∀ contract start key v, (key,v) ∈ after.find contract start ↔ start <+: key ∧
        (if ⟨contract,key⟩ ∈ stored then fork else changed).get? ⟨contract,key⟩ = some v) ∧
      ∀ hash, after.contract? hash =
        if hash ∈ deployed then fork.contract? hash else changed.contract? hash := by
  intro fork stored deployed
  have wrote : base.WroteFork edits fork := wroteFork base edits
  have restored := commitRestores wrote
  refine ⟨rfl,restored.storage,findAlike restored,restored.contracts,fun key free => ?_,
    fun hash free => ?_,fun changed => ⟨rfl,commitMixed wrote changed,?_,
    commitMixedContracts wrote changed⟩⟩
  · exact (restored.storage key).trans (forkKeeps wrote free)
  · exact (restored.contracts hash).trans (forkKeepsContracts wrote free)
  · intro contract start key v
    rw [findListed, commitMixed wrote]
    change _ ∧ (if _ ∈ stored then _ else _) = _ ↔ _
    split <;> rfl

end Snapshot

end ScriptDebugger
