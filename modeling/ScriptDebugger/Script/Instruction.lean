import ScriptDebugger.Script.Interop
import ScriptDebugger.Script.Opcode

/-! Instructions of a script: an opcode with the bytes of its operand, the length of the data
included where the layout has one. -/
namespace ScriptDebugger

structure Instruction where
  opcode : Opcode
  operand : Bytes := []
  deriving DecidableEq, Repr

namespace Instruction

def encode (i : Instruction) : Bytes := i.opcode.byte :: i.operand

def assemble (is : List Instruction) : Bytes := is.flatMap encode

def isCall (i : Instruction) : Bool :=
  i.opcode.isCall ||
    (i.opcode = .SYSCALL && i.operand = Bytes.ofNat 4 Interop.contractCall.code)

def Fits (i : Instruction) : Prop :=
  match i.opcode.layout with
  | .none => i.operand = []
  | .fixed width => i.operand.length = width
  | .prefixed width =>
    width ≤ i.operand.length ∧
      i.operand.length = width + Bytes.toNat (i.operand.take width)

end Instruction

inductive Fetched where
  | ended
  | invalid
  | instruction (i : Instruction) (length : Nat)
  deriving DecidableEq, Repr

namespace Fetched

def instruction? : Fetched → Option Instruction
  | .instruction i _ => some i
  | _ => none

end Fetched

def fetch (script : Bytes) (position : Nat) : Fetched :=
  match script.drop position with
  | [] => .ended
  | b :: rest =>
    match Opcode.ofByte? b with
    | none => .invalid
    | some op =>
      match op.encodedLength? rest with
      | none => .invalid
      | some length =>
        if rest.length + 1 < length then .invalid
        else .instruction ⟨op, rest.take (length - 1)⟩ length

end ScriptDebugger
