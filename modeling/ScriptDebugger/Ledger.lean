import Std.Data.ExtTreeMap
import ScriptDebugger.Contract

/-! The ledger: storage and deployed contracts in layers, listed from the uppermost. Only the top
layer is written; a layer keeps a deletion as a mark, so that it hides what lies below. Values are
immutable, so forks of one snapshot never see each other's writes. -/
namespace ScriptDebugger

structure StorageKey where
  contract : ContractHash
  key : Bytes
  deriving DecidableEq, Repr

namespace StorageKey

instance : Ord StorageKey := ⟨compareLex (compareOn contract) (compareOn key)⟩

instance : Std.TransOrd StorageKey :=
  inferInstanceAs (Std.TransCmp (compareLex (compareOn contract) (compareOn key)))

instance : Std.LawfulEqOrd StorageKey where
  eq_of_compare {a b} h := by
    have both := Ordering.then_eq_eq.mp
      (h : (compare a.contract b.contract).then (compare a.key b.key) = .eq)
    have sameContract := Std.LawfulEqOrd.eq_of_compare both.1
    have sameKey := Std.LawfulEqOrd.eq_of_compare both.2
    cases a; cases b; cases sameContract; cases sameKey; rfl

end StorageKey

/-- Writes on top of a state: a stored value, or the mark of a deletion, for each key written. -/
structure Layer where
  storage : Std.ExtTreeMap StorageKey (Option Bytes) := ∅
  contracts : Std.ExtTreeMap ContractHash Contract := ∅

namespace Layer

def onto (upper lower : Layer) : Layer :=
  ⟨lower.storage ∪ upper.storage, lower.contracts ∪ upper.contracts⟩

def onward (l : Layer) (first : StorageKey) : List (StorageKey × Option Bytes) :=
  l.storage.toList.filter fun (key, _) => (compare first key).isLE

/-- Goes through the entries in order, from the first key that could begin with `start`, and ends
at one that is of another contract or begins otherwise. -/
def scan (l : Layer) (contract : ContractHash) (start : Bytes) : List (Bytes × Option Bytes) :=
  ((l.onward ⟨contract, start⟩).takeWhile fun (key, _) =>
    key.contract = contract ∧ start.isPrefixOf key.key).map fun (key, v) => (key.key, v)

end Layer

structure Snapshot where
  top : Layer := {}
  below : List Layer := []

namespace Snapshot

def empty : Snapshot := {}

def layers (s : Snapshot) : List Layer := s.top :: s.below

def fork (s : Snapshot) : Snapshot := ⟨{}, s.layers⟩

def depth (s : Snapshot) : Nat := s.layers.length

def get? (s : Snapshot) (key : StorageKey) : Option Bytes :=
  (s.layers.findSome? fun l => l.storage[key]?).join

def contract? (s : Snapshot) (hash : ContractHash) : Option Contract :=
  s.layers.findSome? fun l => l.contracts[hash]?

def put (s : Snapshot) (key : StorageKey) (v : Bytes) : Snapshot :=
  { s with top := { s.top with storage := s.top.storage.insert key (some v) } }

def delete (s : Snapshot) (key : StorageKey) : Snapshot :=
  { s with top := { s.top with storage := s.top.storage.insert key none } }

def deploy (s : Snapshot) (c : Contract) : Snapshot :=
  { s with top := { s.top with contracts := s.top.contracts.insert c.hash c } }

def merged (s : Snapshot) : Layer := s.layers.foldr Layer.onto {}

/-- What the layers' scans come to, each over those below it. -/
def scanned (s : Snapshot) (contract : ContractHash) (start : Bytes) :
    Std.ExtTreeMap Bytes (Option Bytes) :=
  s.layers.foldr (fun l found => found.insertMany (l.scan contract start)) ∅

def find (s : Snapshot) (contract : ContractHash) (start : Bytes) : List (Bytes × Bytes) :=
  (s.scanned contract start).toList.filterMap fun (key, v) => v.map (key, ·)

def commitInto (s target : Snapshot) : Snapshot := { target with top := s.top.onto target.top }

def flatten (s : Snapshot) : Snapshot :=
  ⟨{ s.merged with storage := s.merged.storage.filter fun _ v => v.isSome }, []⟩

end Snapshot

end ScriptDebugger
