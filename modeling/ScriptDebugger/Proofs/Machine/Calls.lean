import ScriptDebugger.Proofs.Machine.Code
import ScriptDebugger.Proofs.Text.Utf8

/-! Calls of contracts. What the call does is said once, by what stands on the stack and in the
ledger: it pushes a frame of the method, or faults for want of the contract or of the method. A frame
that opens its slots finds the arguments there in the order of its stack. -/
namespace ScriptDebugger

theorem FrameM.callContractPops {ledger : Snapshot} {f : Frame} {contract : ContractHash}
    {method : String} {flags : Int} {args below : List StackItem}
    (held : f.evaluation = .byteString contract.bytes :: .byteString (Utf8.encode method) ::
      .integer flags :: .array args :: below) :
    callContract ledger f =
      match ledger.contract? contract with
      | none => .error (.contractNotFound contract) { f with evaluation := below }
      | some target =>
        match target.method? method args.length with
        | none =>
          .error (.methodNotFound contract method args.length) { f with evaluation := below }
        | some entry =>
          .ok
            (.enter
              { contract, script := target.script, position := entry.offset, entry := .contract
                evaluation := args })
            { f with evaluation := below } := by
  have hash := popTopBytes held rfl
  have name := @popTopBytes
    { f with
      evaluation := .byteString (Utf8.encode method) :: .integer flags :: .array args :: below }
    _ _ _ rfl rfl
  have word := @popTopInt { f with evaluation := .integer flags :: .array args :: below } _ _ _
    rfl rfl
  have items := @popTop { f with evaluation := .array args :: below } _ _ rfl
  simp only [callContract, bind, EStateM.bind, hash, ContractHash.bytesReadBack, pure, EStateM.pure,
    name, word, items, Utf8.decodeLossyEncode]
  cases ledger.contract? contract with
  | none => rfl
  | some target =>
    dsimp only
    cases target.method? method args.length <;> rfl

namespace Engine

def FaultsWith (e : Engine) (fault : Fault) : Prop :=
  e.executeNext.state = .faulted ∧ e.executeNext.fault = some fault

/-- The next instruction pushes a frame on those there are, of which the top one only goes on. -/
def Enters (e : Engine) (callee : Frame) : Prop :=
  e.executeNext.state = e.state ∧
    ∃ caller, e.executeNext.frames = callee :: caller :: e.frames.tail

theorem entersOnce {e : Engine} {a b : Frame} (one : e.Enters a) (two : e.Enters b) : a = b := by
  obtain ⟨_,_,left⟩ := one
  obtain ⟨_,_,right⟩ := two
  exact (List.cons.inj (left.symm.trans right)).1

theorem faultsOnce {e : Engine} {a b : Fault} (one : e.FaultsWith a) (two : e.FaultsWith b) :
    a = b := Option.some.inj (one.2.symm.trans two.2)

theorem entersNoFault {e : Engine} {callee : Frame} {fault : Fault} (running : e.state = .running)
    (enters : e.Enters callee) : ¬ e.FaultsWith fault := by
  intro faults
  have both := (enters.1.trans running).symm.trans faults.1
  contradiction

def callInstruction : Instruction := ⟨.SYSCALL,Bytes.ofNat 4 Interop.contractCall.code⟩

theorem callFits : callInstruction.Fits := Bytes.lengthOfNat 4 Interop.contractCall.code

theorem executeCall {e : Engine} {f : Frame} {rest : List Frame}
    {contract : ContractHash} {method : String} {flags : Int} {args below : List StackItem}
    (alive : e.state.isTerminal = false) (shape : e.frames = f :: rest)
    (here : callInstruction.encode <+: f.script.drop f.position)
    (held : f.evaluation = .byteString contract.bytes :: .byteString (Utf8.encode method) ::
      .integer flags :: .array args :: below)
    (enough : e.gas + 1 ≤ e.gasLimit) :
    ∃ caller,
      e.executeNext =
        match e.ledger.contract? contract with
        | none =>
          { e.payGas with frames := caller :: rest }.failWith (.contractNotFound contract)
        | some target =>
          match target.method? method args.length with
          | none =>
            { e.payGas with frames := caller :: rest }.failWith
              (.methodNotFound contract method args.length)
          | some entry =>
            { e.payGas with
              frames :=
                { contract, script := target.script, position := entry.offset, entry := .contract
                  evaluation := args } :: caller :: rest } := by
  have fetched : f.fetched = .instruction callInstruction callInstruction.encode.length :=
    fetchEncoded callFits here
  have served := @FrameM.callContractPops e.ledger
    { f with position := f.position + callInstruction.encode.length } contract method flags args
    below held
  refine ⟨{ f with position := f.position + callInstruction.encode.length, evaluation := below },?_⟩
  rw [executeNextPaid alive shape enough]
  cases found : e.ledger.contract? contract with
  | none =>
    rw [found] at served
    exact @runFrameFailed e.payGas _ _ _ _ _ _ fetched served
  | some target =>
    rw [found] at served
    dsimp only at served ⊢
    cases listed : target.method? method args.length with
    | none =>
      rw [listed] at served
      exact @runFrameFailed e.payGas _ _ _ _ _ _ fetched served
    | some entry =>
      rw [listed] at served
      exact @runFrameDone e.payGas _ _ _ _ _ _ fetched served

theorem executeOpenSlots {e : Engine} {f : Frame} {rest : List Frame} {localCount : UInt8}
    (alive : e.state.isTerminal = false) (shape : e.frames = f :: rest)
    (opens : f.fetched.instruction? =
      some ⟨.INITSLOT,[localCount,UInt8.ofNat f.evaluation.length]⟩)
    (few : f.evaluation.length < 256) (enough : e.gas + 1 ≤ e.gasLimit) :
    ∃ opened, e.executeNext.frames = opened :: rest ∧ opened.arguments = some f.evaluation := by
  obtain ⟨length,fetched⟩ : ∃ length, f.fetched =
      .instruction ⟨.INITSLOT,[localCount,UInt8.ofNat f.evaluation.length]⟩ length := by
    cases found : f.fetched with
    | instruction i length =>
      rw [found] at opens
      exact ⟨length,by rw [Option.some.inj opens]⟩
    | _ => rw [found] at opens; contradiction
  have action : Instruction.action ⟨.INITSLOT,[localCount,UInt8.ofNat f.evaluation.length]⟩ =
      .openSlots localCount.toNat f.evaluation.length := by
    simp only [Instruction.action, Instruction.operandByte, List.getD_cons_zero,
      List.getD_cons_succ, UInt8.toNat_ofNat_of_lt' few]
  have opened := @FrameM.openSlotsTakes { f with position := f.position + length } f.evaluation []
    e.payGas.host f.position localCount.toNat (List.append_nil _).symm
  rw [← action] at opened
  rw [executeNextPaid alive shape enough, runFrameDone fetched opened]
  exact ⟨_,rfl,rfl⟩

end Engine

end ScriptDebugger
