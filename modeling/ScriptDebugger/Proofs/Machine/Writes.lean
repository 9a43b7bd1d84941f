import ScriptDebugger.Proofs.Ledger.Reading
import ScriptDebugger.Proofs.Machine.Course

/-! What an execution does to its ledger: each instruction stores under one key at most, in the top
layer, and nothing else of the ledger changes. So the entries of the top layer are those the
execution stored itself, and all other keys read as they did when the engine was made. -/
namespace ScriptDebugger.Engine

def stores? (e : Engine) : Option StorageKey :=
  if e.state.isTerminal then none
  else match e.frames with
    | [] => none
    | f :: _ =>
      if e.gasLimit < e.payGas.gas then none
      else match f.fetched with
        | .instruction i length =>
          match FrameM.perform e.payGas.host f.position i.action
            { f with position := f.position + length } with
          | .ok (.put key _) f => some ⟨f.contract,key⟩
          | _ => none
        | _ => none

theorem awakeLedger (e : Engine) : e.awake.ledger = e.ledger := by
  unfold awake
  split <;> rfl

theorem leaveLedger (e : Engine) (f : Frame) (rest : List Frame) :
    (e.leave f rest).ledger = e.ledger := by
  cases rest <;> rfl

theorem executeNextLedger (e : Engine) :
    (∃ key v, e.stores? = some key ∧ e.executeNext.ledger = e.ledger.put key v) ∨
      (e.stores? = none ∧ e.executeNext.ledger = e.ledger) := by
  unfold stores?
  cases ended : e.state.isTerminal with
  | true =>
    rw [executeNextOfTerminal ended, if_pos rfl]
    exact .inr ⟨rfl,rfl⟩
  | false =>
    cases shape : e.frames with
    | nil =>
      rw [executeNextUnframed ended shape]
      exact .inr ⟨rfl,rfl⟩
    | cons f rest =>
      by_cases short : e.gasLimit < e.payGas.gas
      · rw [executeNextShort ended shape short]
        simp only [if_pos short]
        exact .inr ⟨ite_self none,rfl⟩
      rw [executeNextFramed ended shape short]
      simp only [if_neg short, Bool.false_eq_true, if_false, runFrame]
      cases f.fetched with
      | ended => exact .inr ⟨rfl,leaveLedger e.payGas f rest⟩
      | invalid => exact .inr ⟨rfl,rfl⟩
      | instruction i length =>
        dsimp only
        cases FrameM.perform e.payGas.host f.position i.action
          { f with position := f.position + length } with
        | error fault g => exact .inr ⟨rfl,rfl⟩
        | ok effect g =>
          cases effect with
          | put key v => exact .inl ⟨⟨g.contract,key⟩,v,rfl,rfl⟩
          | leave => exact .inr ⟨rfl,leaveLedger e.payGas g rest⟩
          | _ => exact .inr ⟨rfl,rfl⟩

def Stored (e : Engine) (n : Nat) (key : StorageKey) : Prop :=
  ∃ k < n, (executeNext^[k] e).stores? = some key

theorem storedSucc (e : Engine) (n : Nat) (key : StorageKey) :
    Stored e (n + 1) key ↔ Stored e n key ∨ (executeNext^[n] e).stores? = some key := by
  constructor
  · rintro ⟨k,below,here⟩
    rcases Nat.lt_succ_iff_lt_or_eq.mp below with earlier | rfl
    · exact .inl ⟨k,earlier,here⟩
    · exact .inr here
  · rintro (⟨k,below,here⟩ | here)
    · exact ⟨k,Nat.lt_succ_of_lt below,here⟩
    · exact ⟨n,Nat.lt_succ_self n,here⟩

-- A ledger that `n` instructions of `e` leave, which had nothing in its top layer over `base`.
structure Wrote (e : Engine) (n : Nat) (base ledger : Snapshot) : Prop where
  storage : ∀ key, key ∈ ledger.top.storage ↔ Stored e n key
  contracts : ledger.top.contracts = ∅
  below : ledger.below = base.layers

variable {e r : Engine} {base : Snapshot} {n : Nat}

theorem wrote (fresh : e.ledger = base.fork) (n : Nat) :
    Wrote e n base (executeNext^[n] e).ledger := by
  induction n with
  | zero =>
    rw [Function.iterate_zero, id, fresh]
    refine ⟨fun key => ?_,rfl,rfl⟩
    simp only [Stored, Nat.not_lt_zero, false_and, exists_false, iff_false]
    exact Std.ExtTreeMap.not_mem_empty
  | succ n ih =>
    rw [Function.iterate_succ_apply']
    rcases executeNextLedger (executeNext^[n] e) with ⟨own,v,stored,put⟩ | ⟨none,same⟩
    · rw [put]
      refine ⟨fun key => ?_,ih.contracts,ih.below⟩
      rw [storedSucc, ← ih.storage, stored]
      simp only [Snapshot.put, Std.ExtTreeMap.mem_insert, Std.LawfulEqCmp.compare_eq_iff_eq,
        Option.some.injEq]
      exact or_comm
    · rw [same]
      refine ⟨fun key => ?_,ih.contracts,ih.below⟩
      rw [storedSucc, ← ih.storage, none]
      simp

theorem wroteBy (fresh : e.ledger = base.fork) (course : r.awake = executeNext^[n] e) :
    Wrote e n base r.ledger := by
  rw [← awakeLedger r, course]
  exact wrote fresh n

theorem baseReads (fresh : e.ledger = base.fork) (course : r.awake = executeNext^[n] e) :
    (∀ key, ¬ Stored e n key → r.ledger.get? key = base.get? key) ∧
    ∀ hash, r.ledger.contract? hash = base.contract? hash := by
  have own := wroteBy fresh course
  have under : r.ledger.under = base.fork := congrArg (Snapshot.mk {}) own.below
  refine ⟨fun key other => ?_,fun hash => ?_⟩
  · rw [Snapshot.readUntouched (mt (own.storage key).mp other), under]
    exact (Snapshot.forkAlike base).storage key
  · have free : hash ∉ r.ledger.top.contracts := own.contracts ▸ Std.ExtTreeMap.not_mem_empty
    rw [Snapshot.contractUntouched free, under]
    exact (Snapshot.forkAlike base).contracts hash

theorem commitReads (fresh : e.ledger = base.fork) (course : r.awake = executeNext^[n] e)
    (before : Snapshot) :
    (∀ key, Stored e n key → (r.ledger.commitInto before).get? key = r.ledger.get? key) ∧
    (∀ key, ¬ Stored e n key → (r.ledger.commitInto before).get? key = before.get? key) ∧
    ∀ hash, (r.ledger.commitInto before).contract? hash = before.contract? hash := by
  have own := wroteBy fresh course
  refine ⟨fun key stored => Snapshot.commitTouched ((own.storage key).mpr stored) before,
    fun key other => Snapshot.commitUntouched (mt (own.storage key).mp other) before,
    fun hash => Snapshot.commitUndeployed ?_ before⟩
  exact own.contracts ▸ Std.ExtTreeMap.not_mem_empty

end ScriptDebugger.Engine
