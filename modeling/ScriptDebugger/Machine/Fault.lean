import ScriptDebugger.Contract.Hash
import ScriptDebugger.Script.Opcode

/-! Why a run ends badly, with the message of each cause. All but one are faults, which the engine
records and reports. The last is the loss of the host itself. -/
namespace ScriptDebugger

inductive Fault where
  | invalidInstruction (position : Nat)
  | unsupported (opcode : Opcode)
  | stackUnderflow
  | badSlot (index : Nat)
  | typeMismatch (expected : String)
  | overflow
  | badJump (target : Int)
  | abort
  | assertFailed
  | thrown (message : String)
  | unknownSyscall (code : Nat)
  | contractNotFound (contract : ContractHash)
  | methodNotFound (contract : ContractHash) (method : String) (parameterCount : Nat)
  | outOfGas (limit : Int)
  /-- No fault of the engine's: memory was asked for in advance for so many items, it was not to be
  had, and the host was cut off in the middle of the instruction. No engine is left to report. -/
  | cutOff (count : Nat)
  deriving DecidableEq, Repr

def wordText (n : Nat) : String := "0x" ++ Hex.encode (Bytes.ofNat 4 n).reverse

def Fault.message : Fault → String
  | .invalidInstruction position => s!"invalid instruction at {position}"
  | .unsupported opcode => s!"opcode {opcode.mnemonic} is not supported"
  | .stackUnderflow => "evaluation stack underflow"
  | .badSlot index => s!"slot {index} is not initialised"
  | .typeMismatch expected => s!"type mismatch: expected {expected}"
  | .overflow => "arithmetic overflow"
  | .badJump target => s!"jump target {target} out of range"
  | .abort => "ABORT is executed"
  | .assertFailed => "ASSERT is executed with false result"
  | .thrown message => s!"An unhandled exception was thrown. {message}"
  | .unknownSyscall code => s!"syscall {wordText code} is not supported"
  | .contractNotFound contract => s!"called contract {contract.text} does not exist"
  | .methodNotFound contract method parameterCount =>
    s!"method {method}/{parameterCount} not found in {contract.text}"
  | .outOfGas limit => s!"gas limit {limit} exceeded"
  | .cutOff _ => "capacity overflow"

end ScriptDebugger
