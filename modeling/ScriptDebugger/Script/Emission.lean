import ScriptDebugger.Script.Instruction

/-! Scripts that push values and call contracts. Every value has one form: the shortest push of an
integer, the shortest length of a byte string, and an array as its items from the last to the
first, their count and the instruction that packs them. -/
namespace ScriptDebugger

inductive Parameter where
  | any
  | boolean (b : Bool)
  | integer (i : Int)
  | byteArray (bytes : Bytes)
  | text (s : String)
  | hash (h : ContractHash)
  | list (items : List Parameter)
  deriving Inhabited

namespace Emission

def op (opcode : Opcode) : Bytes := Instruction.encode ⟨opcode, []⟩

def opWith (opcode : Opcode) (operand : Bytes) : Bytes := Instruction.encode ⟨opcode, operand⟩

def intPush (width : Nat) : Opcode × Nat :=
  if width ≤ 1 then (.PUSHINT8, 1)
  else if width ≤ 2 then (.PUSHINT16, 2)
  else if width ≤ 4 then (.PUSHINT32, 4)
  else if width ≤ 8 then (.PUSHINT64, 8)
  else (.PUSHINT128, 16)

def int (i : Int) : Bytes :=
  if -1 ≤ i ∧ i ≤ 16 then [UInt8.ofNat ((Opcode.PUSH0.code : Int) + i).toNat]
  else
    let (opcode, width) := intPush (Bytes.minimalWidth i)
    opWith opcode ((Bytes.ofInt 16 i).take width)

def bool (b : Bool) : Bytes := op (if b then .PUSHT else .PUSHF)

def dataPush (size : Nat) : Opcode × Nat :=
  if size < Bytes.count 1 then (.PUSHDATA1, 1)
  else if size < Bytes.count 2 then (.PUSHDATA2, 2)
  else (.PUSHDATA4, 4)

def data (bytes : Bytes) : Bytes :=
  let (opcode, width) := dataPush bytes.length
  opWith opcode (Bytes.ofNat width (min bytes.length (Bytes.count 4 - 1)) ++ bytes)

def text (s : String) : Bytes := data (Utf8.encode s)

mutual
def parameter : Parameter → Bytes
  | .any => op .PUSHNULL
  | .boolean b => bool b
  | .integer i => int i
  | .byteArray bytes => data bytes
  | .text s => text s
  | .hash h => data h.bytes
  | .list [] => op .NEWARRAY0
  | .list items => reversed items ++ int items.length ++ op .PACK
def reversed : List Parameter → Bytes
  | [] => []
  | item :: rest => reversed rest ++ parameter item
end

def array (items : List Parameter) : Bytes := parameter (.list items)

def syscall (code : Nat) : Bytes := opWith .SYSCALL (Bytes.ofNat 4 code)

def allFlags : Int := 15

def call (contract : ContractHash) (method : String) (args : List Parameter) : Bytes :=
  array args ++ int allFlags ++ text method ++ data contract.bytes ++
    syscall Interop.contractCall.code

end Emission

end ScriptDebugger
