import ScriptDebugger.Ledger
import ScriptDebugger.Machine.Action
import ScriptDebugger.Machine.Fault

/-! One frame of the invocation stack and the instructions that run in it. An instruction changes
its own frame only, and asks for anything more by the effect it yields; a fault leaves the frame
as far as the instruction got with it. Evaluation stacks are listed from the top. -/
namespace ScriptDebugger

/-- How a frame was entered, which decides where its evaluation stack goes when it ends. -/
inductive Entry where
  | script
  | internal
  | contract
  deriving DecidableEq, Repr, Inhabited

structure Frame where
  contract : ContractHash
  script : Bytes
  /-- Without an upper bound, where the machine keeps a word of 32 bits: the two differ only in
  scripts of four gibibytes and more. -/
  position : Nat := 0
  entry : Entry
  evaluation : List StackItem := []
  arguments : Option (List StackItem) := none
  locals : Option (List StackItem) := none
  statics : Option (List StackItem) := none
  deriving Inhabited

/-- What a run finds around it and has no say in. Each reading is told by the gas that is paid, so no
two instructions of a run share one. -/
structure Surroundings where
  /-- Milliseconds that the clock on the wall shows. -/
  clock : Nat → Nat := fun _ => 0
  /-- The most items that there is memory for when it is asked for in advance. Where nothing else is
  known it is what an address space of 63 bits holds of items of 32 bytes. -/
  room : Nat → Nat := fun _ => Nat.pow 2 58 - 1

/-- What one instruction finds. -/
structure Host where
  ledger : Snapshot
  /-- Milliseconds. -/
  time : Nat
  room : Nat

inductive Effect where
  | nothing
  | enter (callee : Frame)
  | leave
  | log (message : String)
  | put (key v : Bytes)

namespace Frame

def fetched (f : Frame) : Fetched := fetch f.script f.position

def slots (f : Frame) : SlotKind → Option (List StackItem)
  | .arguments => f.arguments
  | .locals => f.locals
  | .statics => f.statics

def setSlots (f : Frame) (kind : SlotKind) (items : List StackItem) : Frame :=
  match kind with
  | .arguments => { f with arguments := some items }
  | .locals => { f with locals := some items }
  | .statics => { f with statics := some items }

def returnTo (f caller : Frame) : Frame :=
  match f.entry with
  | .script | .contract => { caller with evaluation := f.evaluation ++ caller.evaluation }
  | .internal =>
    { caller with
      evaluation := f.evaluation
      statics := if caller.contract = f.contract then f.statics else caller.statics }

end Frame

abbrev FrameM := EStateM Fault Frame

namespace FrameM

def pop : FrameM StackItem := do
  let f ← get
  match f.evaluation with
  | [] => throw .stackUnderflow
  | item :: rest =>
    set { f with evaluation := rest }
    return item

def push (item : StackItem) : FrameM Unit :=
  modify fun f => { f with evaluation := item :: f.evaluation }

def popInt : FrameM Int := do
  let item ← pop
  match item.toInt? with
  | some i => return i
  | none => throw (.typeMismatch "Integer")

def popBytes : FrameM Bytes := do
  let item ← pop
  match item.bytes? with
  | some bytes => return bytes
  | none => throw (.typeMismatch "ByteString")

def popMany : Nat → FrameM (List StackItem)
  | 0 => return []
  | count + 1 => do
    let item ← pop
    return item :: (← popMany count)

def jump (start : Nat) (offset : Int) : FrameM Unit := do
  let f ← get
  let target := (start : Int) + offset
  if 0 ≤ target ∧ target ≤ f.script.length then set { f with position := target.toNat }
  else throw (.badJump target)

def load (kind : SlotKind) (index : Nat) : FrameM Unit := do
  match ((← get).slots kind).bind (·[index]?) with
  | some item => push item
  | none => throw (.badSlot index)

def store (kind : SlotKind) (index : Nat) : FrameM Unit := do
  let item ← pop
  let f ← get
  match f.slots kind with
  | some items =>
    if index < items.length then set (f.setSlots kind (items.set index item))
    else throw (.badSlot index)
  | none => throw (.badSlot index)

/-- The memory is asked for before the first item is popped, however few there are. For as many as
there are it is always to be had. -/
def pack (room : Nat) : FrameM Unit := do
  let count ← popInt
  let held := (← get).evaluation.length
  if count < 0 ∨ (Nat.pow 2 64 : Int) ≤ count then throw (.typeMismatch "non-negative count")
  else if max room held < count.toNat then throw (.cutOff count.toNat)
  else push (.array (← popMany count.toNat))

def callInternal (start : Nat) (offset : Int) : FrameM Effect := do
  let f ← get
  let target := (start : Int) + offset
  if 0 ≤ target ∧ target < f.script.length then
    set { f with evaluation := [] }
    return .enter
      { contract := f.contract, script := f.script, position := target.toNat, entry := .internal
        evaluation := f.evaluation, statics := f.statics }
  else throw (.badJump target)

def callContract (ledger : Snapshot) : FrameM Effect := do
  let some contract := ContractHash.ofBytes? (← popBytes) | throw (.typeMismatch "Hash160")
  let method := Utf8.decodeLossy (← popBytes)
  let _flags ← popInt
  let args ← match ← pop with
    | .array items => pure items
    | .struct items => pure items
    | _ => throw (.typeMismatch "Array")
  let some target := ledger.contract? contract | throw (.contractNotFound contract)
  let some entry := target.method? method args.length
    | throw (.methodNotFound contract method args.length)
  return .enter
    { contract, script := target.script, position := entry.offset, entry := .contract
      evaluation := args }

def callService (host : Host) : Interop → FrameM Effect
  | .contractCall => callContract host.ledger
  | .log => return .log (Utf8.decodeLossy (← popBytes))
  | .getTime => do
    push (.integer host.time)
    return .nothing
  | .storageGet => do
    let key ← popBytes
    let f ← get
    push (((host.ledger.get? ⟨f.contract, key⟩).map .byteString).getD .any)
    return .nothing
  | .storagePut => do
    let key ← popBytes
    match ← pop with
    | .integer i => return .put key (Bytes.ofIntShortest i)
    | item =>
      match item.bytes? with
      | some bytes => return .put key bytes
      | none => throw (.typeMismatch "ByteString")

/-- Runs an action whose instruction stood at `start`; the position of the frame is already past
the instruction. -/
def perform (host : Host) (start : Nat) : Action → FrameM Effect
  | .nothing => return .nothing
  | .push item => do
    push item
    return .nothing
  | .jump offset => do
    jump start offset
    return .nothing
  | .jumpIf expected offset => do
    if (← pop).toBool = expected then jump start offset
    return .nothing
  | .call offset => callInternal start offset
  | .ret => return .leave
  | .abort => throw .abort
  | .assert => do
    if (← pop).toBool then return .nothing else throw .assertFailed
  | .throw => do
    throw (.thrown (((← pop).bytes?.map Utf8.decodeLossy).getD ""))
  | .service code =>
    match Interop.ofCode? code with
    | some service => callService host service
    | none => throw (.unknownSyscall code)
  | .drop => do
    discard pop
    return .nothing
  | .dup => do
    let item ← pop
    push item
    push item
    return .nothing
  | .swap => do
    let top ← pop
    let below ← pop
    push top
    push below
    return .nothing
  | .openStatics count => do
    modify fun f => { f with statics := some (List.replicate count .any) }
    return .nothing
  | .openSlots localCount argumentCount => do
    let args ← popMany argumentCount
    modify fun f => { f with locals := some (List.replicate localCount .any), arguments := some args }
    return .nothing
  | .load kind index => do
    load kind index
    return .nothing
  | .store kind index => do
    store kind index
    return .nothing
  | .binary op => do
    let right ← popInt
    let left ← popInt
    match op.apply? left right with
    | some item => push item
    | none => throw .overflow
    return .nothing
  | .add delta => do
    let i ← popInt
    if InInt128 (i + delta) then push (.integer (i + delta)) else throw .overflow
    return .nothing
  | .pack => do
    pack host.room
    return .nothing
  | .unsupported opcode => throw (.unsupported opcode)

end FrameM

end ScriptDebugger
