import ScriptDebugger.Script.Instruction
import ScriptDebugger.Stack.Item

/-! What an instruction does, apart from how it is encoded. Opcodes that differ only in the width
or the place of their operand have the same action. -/
namespace ScriptDebugger

inductive SlotKind where
  | arguments
  | locals
  | statics
  deriving DecidableEq, Repr

inductive BinaryOp where
  | add
  | sub
  | mul
  | equal
  | less
  | greater
  deriving DecidableEq, Repr

def BinaryOp.apply? (op : BinaryOp) (a b : Int) : Option StackItem :=
  let checked (i : Int) : Option StackItem := if InInt128 i then some (.integer i) else none
  match op with
  | .add => checked (a + b)
  | .sub => checked (a - b)
  | .mul => checked (a * b)
  | .equal => some (.boolean (a = b))
  | .less => some (.boolean (a < b))
  | .greater => some (.boolean (b < a))

inductive Action where
  | nothing
  | push (item : StackItem)
  | jump (offset : Int)
  | jumpIf (expected : Bool) (offset : Int)
  | call (offset : Int)
  | ret
  | abort
  | assert
  | throw
  | service (code : Nat)
  | drop
  | dup
  | swap
  | openStatics (count : Nat)
  | openSlots (localCount argumentCount : Nat)
  | load (kind : SlotKind) (index : Nat)
  | store (kind : SlotKind) (index : Nat)
  | binary (op : BinaryOp)
  | add (delta : Int)
  | pack
  | unsupported (opcode : Opcode)
  deriving Inhabited

def Instruction.operandByte (i : Instruction) (index : Nat) : Nat := (i.operand.getD index 0).toNat

def Instruction.rowIndex (i : Instruction) (first : Opcode) : Nat := i.opcode.code - first.code

def Instruction.action (i : Instruction) : Action :=
  let offset := Bytes.toInt128 i.operand
  match i.opcode with
  | .NOP => .nothing
  | .PUSHINT8 | .PUSHINT16 | .PUSHINT32 | .PUSHINT64 | .PUSHINT128 =>
    .push (.integer (Bytes.toInt128 i.operand))
  | .PUSHT => .push (.boolean true)
  | .PUSHF => .push (.boolean false)
  | .PUSHNULL => .push .any
  | .PUSHDATA1 => .push (.byteString (i.operand.drop 1))
  | .PUSHDATA2 => .push (.byteString (i.operand.drop 2))
  | .PUSHDATA4 => .push (.byteString (i.operand.drop 4))
  | .PUSHM1 => .push (.integer (-1))
  | .PUSH0 | .PUSH1 | .PUSH2 | .PUSH3 | .PUSH4 | .PUSH5 | .PUSH6 | .PUSH7 | .PUSH8 | .PUSH9
  | .PUSH10 | .PUSH11 | .PUSH12 | .PUSH13 | .PUSH14 | .PUSH15 | .PUSH16 =>
    .push (.integer (i.rowIndex .PUSH0))
  | .JMP | .JMP_L => .jump offset
  | .JMPIF | .JMPIF_L => .jumpIf true offset
  | .JMPIFNOT | .JMPIFNOT_L => .jumpIf false offset
  | .CALL | .CALL_L => .call offset
  | .RET => .ret
  | .ABORT => .abort
  | .ASSERT => .assert
  | .THROW => .throw
  | .SYSCALL => .service (Bytes.toNat i.operand)
  | .DROP => .drop
  | .DUP => .dup
  | .SWAP => .swap
  | .INITSSLOT => .openStatics (i.operandByte 0)
  | .INITSLOT => .openSlots (i.operandByte 0) (i.operandByte 1)
  | .LDSFLD0 | .LDSFLD1 | .LDSFLD2 | .LDSFLD3 | .LDSFLD4 | .LDSFLD5 | .LDSFLD6 =>
    .load .statics (i.rowIndex .LDSFLD0)
  | .LDSFLD => .load .statics (i.operandByte 0)
  | .STSFLD0 | .STSFLD1 | .STSFLD2 | .STSFLD3 | .STSFLD4 | .STSFLD5 | .STSFLD6 =>
    .store .statics (i.rowIndex .STSFLD0)
  | .STSFLD => .store .statics (i.operandByte 0)
  | .LDLOC0 | .LDLOC1 | .LDLOC2 | .LDLOC3 | .LDLOC4 | .LDLOC5 | .LDLOC6 =>
    .load .locals (i.rowIndex .LDLOC0)
  | .LDLOC => .load .locals (i.operandByte 0)
  | .STLOC0 | .STLOC1 | .STLOC2 | .STLOC3 | .STLOC4 | .STLOC5 | .STLOC6 =>
    .store .locals (i.rowIndex .STLOC0)
  | .STLOC => .store .locals (i.operandByte 0)
  | .LDARG0 | .LDARG1 | .LDARG2 | .LDARG3 | .LDARG4 | .LDARG5 | .LDARG6 =>
    .load .arguments (i.rowIndex .LDARG0)
  | .LDARG => .load .arguments (i.operandByte 0)
  | .STARG0 | .STARG1 | .STARG2 | .STARG3 | .STARG4 | .STARG5 | .STARG6 =>
    .store .arguments (i.rowIndex .STARG0)
  | .STARG => .store .arguments (i.operandByte 0)
  | .ADD => .binary .add
  | .SUB => .binary .sub
  | .MUL => .binary .mul
  | .NUMEQUAL => .binary .equal
  | .LT => .binary .less
  | .GT => .binary .greater
  | .INC => .add 1
  | .DEC => .add (-1)
  | .NEWARRAY0 => .push (.array [])
  | .PACK => .pack
  | opcode => .unsupported opcode

end ScriptDebugger
