import ScriptDebugger.Proofs.Machine.Code
import ScriptDebugger.Proofs.Machine.Writes
import ScriptDebugger.Script.Emission

/-! What is stored and read by the services of the machine. To store puts the bytes of an item into the
ledger under the key of the frame's contract, and until something else is stored there every engine on
the way reads them back. -/
namespace ScriptDebugger

namespace FrameM

theorem storagePutPops {host : Host} {f : Frame} {keyItem : StackItem} {key : Bytes} {i : Int}
    {below : List StackItem} (held : f.evaluation = keyItem :: .integer i :: below)
    (named : keyItem.bytes? = some key) :
    callService host .storagePut f =
      .ok (.put key (Bytes.ofIntShortest i)) { f with evaluation := below } := by
  have v := @popTop { f with evaluation := .integer i :: below } _ _ rfl
  simp only [callService, bind, EStateM.bind, popTopBytes held named, v]
  rfl

theorem storageGetPushes {host : Host} {f : Frame} {keyItem : StackItem} {key v : Bytes}
    {below : List StackItem} (held : f.evaluation = keyItem :: below)
    (named : keyItem.bytes? = some key) (read : host.ledger.get? ⟨f.contract,key⟩ = some v) :
    callService host .storageGet f =
      .ok .nothing { f with evaluation := .byteString v :: below } := by
  have item : ((host.ledger.get? ⟨f.contract,key⟩).map StackItem.byteString).getD .any =
      .byteString v := by
    rw [read]
    rfl
  simp only [callService, bind, EStateM.bind, popTopBytes held named]
  rw [← item]
  rfl

end FrameM

namespace Engine

/-- The next instruction calls a service, with these items on top of the stack. -/
structure CallsService (e : Engine) (service : Interop) (f : Frame) (rest : List Frame)
    (args below : List StackItem) : Prop where
  alive : e.state.isTerminal = false
  shape : e.frames = f :: rest
  here : Emission.syscall service.code <+: f.script.drop f.position
  held : f.evaluation = args ++ below
  paid : e.gas + 1 ≤ e.gasLimit

variable {e : Engine} {f : Frame} {rest : List Frame} {args below : List StackItem}

theorem executeService {service : Interop} (calls : e.CallsService service f rest args below)
    {effect : Effect} {g : Frame}
    (served : FrameM.callService e.payGas.host service { f with position := f.position + 5 } =
      .ok effect g) :
    e.executeNext = e.payGas.apply g rest effect := by
  have named : Instruction.action ⟨.SYSCALL,Bytes.ofNat 4 service.code⟩ = .service service.code := by
    cases service <;> rfl
  have fetched : f.fetched = .instruction ⟨.SYSCALL,Bytes.ofNat 4 service.code⟩ 5 :=
    fetchEncoded (Bytes.lengthOfNat 4 service.code) calls.here
  rw [executeNextPaid calls.alive calls.shape calls.paid]
  refine runFrameDone fetched ?_
  rw [named]
  simp only [FrameM.perform, Interop.codeReadBack]
  exact served

theorem readKept {n : Nat} {key : StorageKey} (other : ¬ Stored e n key) :
    (executeNext^[n] e).ledger.get? key = e.ledger.get? key := by
  induction n with
  | zero => rfl
  | succ n ih =>
    rw [storedSucc, not_or] at other
    rw [Function.iterate_succ_apply', ← ih other.1]
    rcases executeNextLedger (executeNext^[n] e) with ⟨own,v,stored,put⟩ | ⟨_,same⟩
    · have apart : own ≠ key := fun same => other.2 (same ▸ stored)
      rw [put, Snapshot.readPut, if_neg apart]
    · rw [same]

theorem executePut {keyItem : StackItem} {key : Bytes} {i : Int}
    (puts : e.CallsService .storagePut f rest [keyItem,.integer i] below)
    (named : keyItem.bytes? = some key) :
    e.executeNext =
      { e.past f rest 1 5 below with
        ledger := e.ledger.put ⟨f.contract,key⟩ (Bytes.ofIntShortest i) } :=
  executeService puts (FrameM.storagePutPops puts.held named)

theorem executeGet {keyItem : StackItem} {key v : Bytes}
    (gets : e.CallsService .storageGet f rest [keyItem] below) (named : keyItem.bytes? = some key)
    (read : e.ledger.get? ⟨f.contract,key⟩ = some v) :
    e.executeNext = e.past f rest 1 5 (.byteString v :: below) :=
  executeService gets (FrameM.storageGetPushes gets.held named read)

-- Between the two calls anything may run but what stores under the key.
theorem storedReadBack {keyItem again : StackItem} {key : Bytes} {i : Int} {n : Nat} {g : Frame}
    {others : List Frame} {kept : List StackItem}
    (puts : e.CallsService .storagePut f rest [keyItem,.integer i] below)
    (named : keyItem.bytes? = some key)
    (other : ¬ Stored e.executeNext n ⟨f.contract,key⟩)
    (gets : (executeNext^[n] e.executeNext).CallsService .storageGet g others [again] kept)
    (sameKey : again.bytes? = some key) (own : g.contract = f.contract) :
    executeNext^[n + 1] e.executeNext =
      (executeNext^[n] e.executeNext).past g others 1 5
        (.byteString (Bytes.ofIntShortest i) :: kept) := by
  rw [Function.iterate_succ_apply']
  refine executeGet gets sameKey ?_
  rw [own, readKept other, executePut puts named]
  exact (Snapshot.readPut _ _ _ _).trans (if_pos rfl)

end Engine

end ScriptDebugger
