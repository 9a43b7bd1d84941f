import ScriptDebugger.Bytes

/-! The instruction set: each opcode has a mnemonic, a byte and the layout of the operand that
follows the byte. Main statements: bytes and mnemonics each tell opcodes apart, and reading one
back gives the opcode. -/
namespace ScriptDebugger

/-- What follows the opcode byte: nothing, a fixed number of bytes, or data after its length,
which is written in so many bytes, least significant first. -/
inductive OperandLayout where
  | none
  | fixed (width : Nat)
  | prefixed (width : Nat)
  deriving DecidableEq, Repr

inductive Opcode where
  | PUSHINT8 | PUSHINT16 | PUSHINT32 | PUSHINT64 | PUSHINT128 | PUSHINT256 | PUSHT | PUSHF | PUSHA
  | PUSHNULL | PUSHDATA1 | PUSHDATA2 | PUSHDATA4 | PUSHM1 | PUSH0 | PUSH1 | PUSH2 | PUSH3 | PUSH4
  | PUSH5 | PUSH6 | PUSH7 | PUSH8 | PUSH9 | PUSH10 | PUSH11 | PUSH12 | PUSH13 | PUSH14 | PUSH15
  | PUSH16 | NOP | JMP | JMP_L | JMPIF | JMPIF_L | JMPIFNOT | JMPIFNOT_L | JMPEQ | JMPEQ_L | JMPNE
  | JMPNE_L | JMPGT | JMPGT_L | JMPGE | JMPGE_L | JMPLT | JMPLT_L | JMPLE | JMPLE_L | CALL
  | CALL_L | CALLA | CALLT | ABORT | ASSERT | THROW | TRY | TRY_L | ENDTRY | ENDTRY_L | ENDFINALLY
  | RET | SYSCALL | DEPTH | DROP | NIP | XDROP | CLEAR | DUP | OVER | PICK | TUCK | SWAP | ROT
  | ROLL | REVERSE3 | REVERSE4 | REVERSEN | INITSSLOT | INITSLOT | LDSFLD0 | LDSFLD1 | LDSFLD2
  | LDSFLD3 | LDSFLD4 | LDSFLD5 | LDSFLD6 | LDSFLD | STSFLD0 | STSFLD1 | STSFLD2 | STSFLD3
  | STSFLD4 | STSFLD5 | STSFLD6 | STSFLD | LDLOC0 | LDLOC1 | LDLOC2 | LDLOC3 | LDLOC4 | LDLOC5
  | LDLOC6 | LDLOC | STLOC0 | STLOC1 | STLOC2 | STLOC3 | STLOC4 | STLOC5 | STLOC6 | STLOC | LDARG0
  | LDARG1 | LDARG2 | LDARG3 | LDARG4 | LDARG5 | LDARG6 | LDARG | STARG0 | STARG1 | STARG2
  | STARG3 | STARG4 | STARG5 | STARG6 | STARG | NEWBUFFER | MEMCPY | CAT | SUBSTR | LEFT | RIGHT
  | INVERT | AND | OR | XOR | EQUAL | NOTEQUAL | SIGN | ABS | NEGATE | INC | DEC | ADD | SUB | MUL
  | DIV | MOD | POW | SQRT | MODMUL | MODPOW | SHL | SHR | NOT | BOOLAND | BOOLOR | NZ | NUMEQUAL
  | NUMNOTEQUAL | LT | LE | GT | GE | MIN | MAX | WITHIN | PACKMAP | PACKSTRUCT | PACK | UNPACK
  | NEWARRAY0 | NEWARRAY | NEWARRAY_T | NEWSTRUCT0 | NEWSTRUCT | NEWMAP | SIZE | HASKEY | KEYS
  | VALUES | PICKITEM | APPEND | SETITEM | REVERSEITEMS | REMOVE | CLEARITEMS | POPITEM | ISNULL
  | ISTYPE | CONVERT | ABORTMSG | ASSERTMSG
  deriving DecidableEq, Repr

namespace Opcode

def all : List Opcode :=
  [.PUSHINT8, .PUSHINT16, .PUSHINT32, .PUSHINT64, .PUSHINT128, .PUSHINT256, .PUSHT, .PUSHF,
   .PUSHA, .PUSHNULL, .PUSHDATA1, .PUSHDATA2, .PUSHDATA4, .PUSHM1, .PUSH0, .PUSH1, .PUSH2, .PUSH3,
   .PUSH4, .PUSH5, .PUSH6, .PUSH7, .PUSH8, .PUSH9, .PUSH10, .PUSH11, .PUSH12, .PUSH13, .PUSH14,
   .PUSH15, .PUSH16, .NOP, .JMP, .JMP_L, .JMPIF, .JMPIF_L, .JMPIFNOT, .JMPIFNOT_L, .JMPEQ,
   .JMPEQ_L, .JMPNE, .JMPNE_L, .JMPGT, .JMPGT_L, .JMPGE, .JMPGE_L, .JMPLT, .JMPLT_L, .JMPLE,
   .JMPLE_L, .CALL, .CALL_L, .CALLA, .CALLT, .ABORT, .ASSERT, .THROW, .TRY, .TRY_L, .ENDTRY,
   .ENDTRY_L, .ENDFINALLY, .RET, .SYSCALL, .DEPTH, .DROP, .NIP, .XDROP, .CLEAR, .DUP, .OVER,
   .PICK, .TUCK, .SWAP, .ROT, .ROLL, .REVERSE3, .REVERSE4, .REVERSEN, .INITSSLOT, .INITSLOT,
   .LDSFLD0, .LDSFLD1, .LDSFLD2, .LDSFLD3, .LDSFLD4, .LDSFLD5, .LDSFLD6, .LDSFLD, .STSFLD0,
   .STSFLD1, .STSFLD2, .STSFLD3, .STSFLD4, .STSFLD5, .STSFLD6, .STSFLD, .LDLOC0, .LDLOC1, .LDLOC2,
   .LDLOC3, .LDLOC4, .LDLOC5, .LDLOC6, .LDLOC, .STLOC0, .STLOC1, .STLOC2, .STLOC3, .STLOC4,
   .STLOC5, .STLOC6, .STLOC, .LDARG0, .LDARG1, .LDARG2, .LDARG3, .LDARG4, .LDARG5, .LDARG6,
   .LDARG, .STARG0, .STARG1, .STARG2, .STARG3, .STARG4, .STARG5, .STARG6, .STARG, .NEWBUFFER,
   .MEMCPY, .CAT, .SUBSTR, .LEFT, .RIGHT, .INVERT, .AND, .OR, .XOR, .EQUAL, .NOTEQUAL, .SIGN,
   .ABS, .NEGATE, .INC, .DEC, .ADD, .SUB, .MUL, .DIV, .MOD, .POW, .SQRT, .MODMUL, .MODPOW, .SHL,
   .SHR, .NOT, .BOOLAND, .BOOLOR, .NZ, .NUMEQUAL, .NUMNOTEQUAL, .LT, .LE, .GT, .GE, .MIN, .MAX,
   .WITHIN, .PACKMAP, .PACKSTRUCT, .PACK, .UNPACK, .NEWARRAY0, .NEWARRAY, .NEWARRAY_T,
   .NEWSTRUCT0, .NEWSTRUCT, .NEWMAP, .SIZE, .HASKEY, .KEYS, .VALUES, .PICKITEM, .APPEND, .SETITEM,
   .REVERSEITEMS, .REMOVE, .CLEARITEMS, .POPITEM, .ISNULL, .ISTYPE, .CONVERT, .ABORTMSG,
   .ASSERTMSG]

def code : Opcode → Nat
  | .PUSHINT8 => 0x00 | .PUSHINT16 => 0x01 | .PUSHINT32 => 0x02 | .PUSHINT64 => 0x03
  | .PUSHINT128 => 0x04 | .PUSHINT256 => 0x05 | .PUSHT => 0x08 | .PUSHF => 0x09 | .PUSHA => 0x0a
  | .PUSHNULL => 0x0b | .PUSHDATA1 => 0x0c | .PUSHDATA2 => 0x0d | .PUSHDATA4 => 0x0e
  | .PUSHM1 => 0x0f | .PUSH0 => 0x10 | .PUSH1 => 0x11 | .PUSH2 => 0x12 | .PUSH3 => 0x13
  | .PUSH4 => 0x14 | .PUSH5 => 0x15 | .PUSH6 => 0x16 | .PUSH7 => 0x17 | .PUSH8 => 0x18
  | .PUSH9 => 0x19 | .PUSH10 => 0x1a | .PUSH11 => 0x1b | .PUSH12 => 0x1c | .PUSH13 => 0x1d
  | .PUSH14 => 0x1e | .PUSH15 => 0x1f | .PUSH16 => 0x20 | .NOP => 0x21 | .JMP => 0x22
  | .JMP_L => 0x23 | .JMPIF => 0x24 | .JMPIF_L => 0x25 | .JMPIFNOT => 0x26 | .JMPIFNOT_L => 0x27
  | .JMPEQ => 0x28 | .JMPEQ_L => 0x29 | .JMPNE => 0x2a | .JMPNE_L => 0x2b | .JMPGT => 0x2c
  | .JMPGT_L => 0x2d | .JMPGE => 0x2e | .JMPGE_L => 0x2f | .JMPLT => 0x30 | .JMPLT_L => 0x31
  | .JMPLE => 0x32 | .JMPLE_L => 0x33 | .CALL => 0x34 | .CALL_L => 0x35 | .CALLA => 0x36
  | .CALLT => 0x37 | .ABORT => 0x38 | .ASSERT => 0x39 | .THROW => 0x3a | .TRY => 0x3b
  | .TRY_L => 0x3c | .ENDTRY => 0x3d | .ENDTRY_L => 0x3e | .ENDFINALLY => 0x3f | .RET => 0x40
  | .SYSCALL => 0x41 | .DEPTH => 0x43 | .DROP => 0x45 | .NIP => 0x46 | .XDROP => 0x48
  | .CLEAR => 0x49 | .DUP => 0x4a | .OVER => 0x4b | .PICK => 0x4d | .TUCK => 0x4e | .SWAP => 0x50
  | .ROT => 0x51 | .ROLL => 0x52 | .REVERSE3 => 0x53 | .REVERSE4 => 0x54 | .REVERSEN => 0x55
  | .INITSSLOT => 0x56 | .INITSLOT => 0x57 | .LDSFLD0 => 0x58 | .LDSFLD1 => 0x59
  | .LDSFLD2 => 0x5a | .LDSFLD3 => 0x5b | .LDSFLD4 => 0x5c | .LDSFLD5 => 0x5d | .LDSFLD6 => 0x5e
  | .LDSFLD => 0x5f | .STSFLD0 => 0x60 | .STSFLD1 => 0x61 | .STSFLD2 => 0x62 | .STSFLD3 => 0x63
  | .STSFLD4 => 0x64 | .STSFLD5 => 0x65 | .STSFLD6 => 0x66 | .STSFLD => 0x67 | .LDLOC0 => 0x68
  | .LDLOC1 => 0x69 | .LDLOC2 => 0x6a | .LDLOC3 => 0x6b | .LDLOC4 => 0x6c | .LDLOC5 => 0x6d
  | .LDLOC6 => 0x6e | .LDLOC => 0x6f | .STLOC0 => 0x70 | .STLOC1 => 0x71 | .STLOC2 => 0x72
  | .STLOC3 => 0x73 | .STLOC4 => 0x74 | .STLOC5 => 0x75 | .STLOC6 => 0x76 | .STLOC => 0x77
  | .LDARG0 => 0x78 | .LDARG1 => 0x79 | .LDARG2 => 0x7a | .LDARG3 => 0x7b | .LDARG4 => 0x7c
  | .LDARG5 => 0x7d | .LDARG6 => 0x7e | .LDARG => 0x7f | .STARG0 => 0x80 | .STARG1 => 0x81
  | .STARG2 => 0x82 | .STARG3 => 0x83 | .STARG4 => 0x84 | .STARG5 => 0x85 | .STARG6 => 0x86
  | .STARG => 0x87 | .NEWBUFFER => 0x88 | .MEMCPY => 0x89 | .CAT => 0x8b | .SUBSTR => 0x8c
  | .LEFT => 0x8d | .RIGHT => 0x8e | .INVERT => 0x90 | .AND => 0x91 | .OR => 0x92 | .XOR => 0x93
  | .EQUAL => 0x97 | .NOTEQUAL => 0x98 | .SIGN => 0x99 | .ABS => 0x9a | .NEGATE => 0x9b
  | .INC => 0x9c | .DEC => 0x9d | .ADD => 0x9e | .SUB => 0x9f | .MUL => 0xa0 | .DIV => 0xa1
  | .MOD => 0xa2 | .POW => 0xa3 | .SQRT => 0xa4 | .MODMUL => 0xa5 | .MODPOW => 0xa6 | .SHL => 0xa8
  | .SHR => 0xa9 | .NOT => 0xaa | .BOOLAND => 0xab | .BOOLOR => 0xac | .NZ => 0xb1
  | .NUMEQUAL => 0xb3 | .NUMNOTEQUAL => 0xb4 | .LT => 0xb5 | .LE => 0xb6 | .GT => 0xb7
  | .GE => 0xb8 | .MIN => 0xb9 | .MAX => 0xba | .WITHIN => 0xbb | .PACKMAP => 0xbe
  | .PACKSTRUCT => 0xbf | .PACK => 0xc0 | .UNPACK => 0xc1 | .NEWARRAY0 => 0xc2 | .NEWARRAY => 0xc3
  | .NEWARRAY_T => 0xc4 | .NEWSTRUCT0 => 0xc5 | .NEWSTRUCT => 0xc6 | .NEWMAP => 0xc8
  | .SIZE => 0xca | .HASKEY => 0xcb | .KEYS => 0xcc | .VALUES => 0xcd | .PICKITEM => 0xce
  | .APPEND => 0xcf | .SETITEM => 0xd0 | .REVERSEITEMS => 0xd1 | .REMOVE => 0xd2
  | .CLEARITEMS => 0xd3 | .POPITEM => 0xd4 | .ISNULL => 0xd8 | .ISTYPE => 0xd9 | .CONVERT => 0xdb
  | .ABORTMSG => 0xe0 | .ASSERTMSG => 0xe1

def mnemonic : Opcode → String
  | .PUSHINT8 => "PUSHINT8" | .PUSHINT16 => "PUSHINT16" | .PUSHINT32 => "PUSHINT32"
  | .PUSHINT64 => "PUSHINT64" | .PUSHINT128 => "PUSHINT128" | .PUSHINT256 => "PUSHINT256"
  | .PUSHT => "PUSHT" | .PUSHF => "PUSHF" | .PUSHA => "PUSHA" | .PUSHNULL => "PUSHNULL"
  | .PUSHDATA1 => "PUSHDATA1" | .PUSHDATA2 => "PUSHDATA2" | .PUSHDATA4 => "PUSHDATA4"
  | .PUSHM1 => "PUSHM1" | .PUSH0 => "PUSH0" | .PUSH1 => "PUSH1" | .PUSH2 => "PUSH2"
  | .PUSH3 => "PUSH3" | .PUSH4 => "PUSH4" | .PUSH5 => "PUSH5" | .PUSH6 => "PUSH6"
  | .PUSH7 => "PUSH7" | .PUSH8 => "PUSH8" | .PUSH9 => "PUSH9" | .PUSH10 => "PUSH10"
  | .PUSH11 => "PUSH11" | .PUSH12 => "PUSH12" | .PUSH13 => "PUSH13" | .PUSH14 => "PUSH14"
  | .PUSH15 => "PUSH15" | .PUSH16 => "PUSH16" | .NOP => "NOP" | .JMP => "JMP" | .JMP_L => "JMP_L"
  | .JMPIF => "JMPIF" | .JMPIF_L => "JMPIF_L" | .JMPIFNOT => "JMPIFNOT"
  | .JMPIFNOT_L => "JMPIFNOT_L" | .JMPEQ => "JMPEQ" | .JMPEQ_L => "JMPEQ_L" | .JMPNE => "JMPNE"
  | .JMPNE_L => "JMPNE_L" | .JMPGT => "JMPGT" | .JMPGT_L => "JMPGT_L" | .JMPGE => "JMPGE"
  | .JMPGE_L => "JMPGE_L" | .JMPLT => "JMPLT" | .JMPLT_L => "JMPLT_L" | .JMPLE => "JMPLE"
  | .JMPLE_L => "JMPLE_L" | .CALL => "CALL" | .CALL_L => "CALL_L" | .CALLA => "CALLA"
  | .CALLT => "CALLT" | .ABORT => "ABORT" | .ASSERT => "ASSERT" | .THROW => "THROW"
  | .TRY => "TRY" | .TRY_L => "TRY_L" | .ENDTRY => "ENDTRY" | .ENDTRY_L => "ENDTRY_L"
  | .ENDFINALLY => "ENDFINALLY" | .RET => "RET" | .SYSCALL => "SYSCALL" | .DEPTH => "DEPTH"
  | .DROP => "DROP" | .NIP => "NIP" | .XDROP => "XDROP" | .CLEAR => "CLEAR" | .DUP => "DUP"
  | .OVER => "OVER" | .PICK => "PICK" | .TUCK => "TUCK" | .SWAP => "SWAP" | .ROT => "ROT"
  | .ROLL => "ROLL" | .REVERSE3 => "REVERSE3" | .REVERSE4 => "REVERSE4" | .REVERSEN => "REVERSEN"
  | .INITSSLOT => "INITSSLOT" | .INITSLOT => "INITSLOT" | .LDSFLD0 => "LDSFLD0"
  | .LDSFLD1 => "LDSFLD1" | .LDSFLD2 => "LDSFLD2" | .LDSFLD3 => "LDSFLD3" | .LDSFLD4 => "LDSFLD4"
  | .LDSFLD5 => "LDSFLD5" | .LDSFLD6 => "LDSFLD6" | .LDSFLD => "LDSFLD" | .STSFLD0 => "STSFLD0"
  | .STSFLD1 => "STSFLD1" | .STSFLD2 => "STSFLD2" | .STSFLD3 => "STSFLD3" | .STSFLD4 => "STSFLD4"
  | .STSFLD5 => "STSFLD5" | .STSFLD6 => "STSFLD6" | .STSFLD => "STSFLD" | .LDLOC0 => "LDLOC0"
  | .LDLOC1 => "LDLOC1" | .LDLOC2 => "LDLOC2" | .LDLOC3 => "LDLOC3" | .LDLOC4 => "LDLOC4"
  | .LDLOC5 => "LDLOC5" | .LDLOC6 => "LDLOC6" | .LDLOC => "LDLOC" | .STLOC0 => "STLOC0"
  | .STLOC1 => "STLOC1" | .STLOC2 => "STLOC2" | .STLOC3 => "STLOC3" | .STLOC4 => "STLOC4"
  | .STLOC5 => "STLOC5" | .STLOC6 => "STLOC6" | .STLOC => "STLOC" | .LDARG0 => "LDARG0"
  | .LDARG1 => "LDARG1" | .LDARG2 => "LDARG2" | .LDARG3 => "LDARG3" | .LDARG4 => "LDARG4"
  | .LDARG5 => "LDARG5" | .LDARG6 => "LDARG6" | .LDARG => "LDARG" | .STARG0 => "STARG0"
  | .STARG1 => "STARG1" | .STARG2 => "STARG2" | .STARG3 => "STARG3" | .STARG4 => "STARG4"
  | .STARG5 => "STARG5" | .STARG6 => "STARG6" | .STARG => "STARG" | .NEWBUFFER => "NEWBUFFER"
  | .MEMCPY => "MEMCPY" | .CAT => "CAT" | .SUBSTR => "SUBSTR" | .LEFT => "LEFT"
  | .RIGHT => "RIGHT" | .INVERT => "INVERT" | .AND => "AND" | .OR => "OR" | .XOR => "XOR"
  | .EQUAL => "EQUAL" | .NOTEQUAL => "NOTEQUAL" | .SIGN => "SIGN" | .ABS => "ABS"
  | .NEGATE => "NEGATE" | .INC => "INC" | .DEC => "DEC" | .ADD => "ADD" | .SUB => "SUB"
  | .MUL => "MUL" | .DIV => "DIV" | .MOD => "MOD" | .POW => "POW" | .SQRT => "SQRT"
  | .MODMUL => "MODMUL" | .MODPOW => "MODPOW" | .SHL => "SHL" | .SHR => "SHR" | .NOT => "NOT"
  | .BOOLAND => "BOOLAND" | .BOOLOR => "BOOLOR" | .NZ => "NZ" | .NUMEQUAL => "NUMEQUAL"
  | .NUMNOTEQUAL => "NUMNOTEQUAL" | .LT => "LT" | .LE => "LE" | .GT => "GT" | .GE => "GE"
  | .MIN => "MIN" | .MAX => "MAX" | .WITHIN => "WITHIN" | .PACKMAP => "PACKMAP"
  | .PACKSTRUCT => "PACKSTRUCT" | .PACK => "PACK" | .UNPACK => "UNPACK"
  | .NEWARRAY0 => "NEWARRAY0" | .NEWARRAY => "NEWARRAY" | .NEWARRAY_T => "NEWARRAY_T"
  | .NEWSTRUCT0 => "NEWSTRUCT0" | .NEWSTRUCT => "NEWSTRUCT" | .NEWMAP => "NEWMAP"
  | .SIZE => "SIZE" | .HASKEY => "HASKEY" | .KEYS => "KEYS" | .VALUES => "VALUES"
  | .PICKITEM => "PICKITEM" | .APPEND => "APPEND" | .SETITEM => "SETITEM"
  | .REVERSEITEMS => "REVERSEITEMS" | .REMOVE => "REMOVE" | .CLEARITEMS => "CLEARITEMS"
  | .POPITEM => "POPITEM" | .ISNULL => "ISNULL" | .ISTYPE => "ISTYPE" | .CONVERT => "CONVERT"
  | .ABORTMSG => "ABORTMSG" | .ASSERTMSG => "ASSERTMSG"

def layout : Opcode → OperandLayout
  | .PUSHINT8 | .JMP | .JMPIF | .JMPIFNOT | .JMPEQ | .JMPNE | .JMPGT | .JMPGE | .JMPLT | .JMPLE
  | .CALL | .ENDTRY | .INITSSLOT | .LDSFLD | .STSFLD | .LDLOC | .STLOC | .LDARG | .STARG
  | .NEWARRAY_T | .ISTYPE | .CONVERT => .fixed 1
  | .PUSHINT16 | .CALLT | .TRY | .INITSLOT => .fixed 2
  | .PUSHINT32 | .PUSHA | .JMP_L | .JMPIF_L | .JMPIFNOT_L | .JMPEQ_L | .JMPNE_L | .JMPGT_L
  | .JMPGE_L | .JMPLT_L | .JMPLE_L | .CALL_L | .ENDTRY_L | .SYSCALL => .fixed 4
  | .PUSHINT64 | .TRY_L => .fixed 8
  | .PUSHINT128 => .fixed 16
  | .PUSHINT256 => .fixed 32
  | .PUSHDATA1 => .prefixed 1
  | .PUSHDATA2 => .prefixed 2
  | .PUSHDATA4 => .prefixed 4
  | _ => .none

def byte (op : Opcode) : UInt8 := UInt8.ofNat op.code

def ofByte? (b : UInt8) : Option Opcode := all.find? fun op => op.code == b.toNat

def ofMnemonic? (s : String) : Option Opcode := all.find? fun op => op.mnemonic = s

def isCall : Opcode → Bool
  | .CALL | .CALL_L | .CALLA | .CALLT => true
  | _ => false

def encodedLength? (op : Opcode) (rest : Bytes) : Option Nat :=
  match op.layout with
  | .none => some 1
  | .fixed width => some (1 + width)
  | .prefixed width =>
    if rest.length < width then none
    else some (1 + width + Bytes.toNat (rest.take width))

theorem placeInAll (op : Opcode) : all[op.ctorIdx]? = some op := by cases op <;> rfl

theorem allListed (op : Opcode) : op ∈ all := List.mem_of_getElem? (placeInAll op)

theorem codeBound (op : Opcode) : op.code < 256 := by
  have table : ∀ op ∈ all, op.code < 256 := by decide +kernel
  exact table op (allListed op)

theorem byteIsCode (op : Opcode) : op.byte.toNat = op.code := by
  simp [byte, Nat.mod_eq_of_lt (codeBound op)]

theorem byteReadBack (op : Opcode) : ofByte? op.byte = some op := by
  have table : ∀ op ∈ all, all.find? (fun x => x.code == op.code) = some op := by decide +kernel
  rw [ofByte?, byteIsCode]
  exact table op (allListed op)

theorem readByteExact {b : UInt8} {op : Opcode} (h : ofByte? b = some op) : op.byte = b := by
  have code : op.code = b.toNat := by simpa using List.find?_some h
  simp [byte, code]

theorem readMnemonicExact {s : String} {op : Opcode} (h : ofMnemonic? s = some op) :
    op.mnemonic = s := by
  simpa using List.find?_some h

theorem mnemonicUnlisted {s : String} (unlisted : ofMnemonic? s = none) (op : Opcode) :
    op.mnemonic ≠ s := by
  have passed := List.find?_eq_none.mp unlisted op (allListed op)
  simpa using passed

end Opcode

end ScriptDebugger
