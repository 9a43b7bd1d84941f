import ScriptDebugger.Machine.Action
import ScriptDebugger.Proofs.Script.Fetching

/-! A script read instruction by instruction, from a position on until nothing more is fetched. What was
assembled is read back whole, and whatever is read is what the script says there. Every byte that an
instruction takes from its operand is in it. -/
namespace ScriptDebugger

namespace Instruction

def byte? (i : Instruction) (index : Nat) : Option Nat := i.operand[index]?.map UInt8.toNat

def behind? (i : Instruction) (width : Nat) : Option Bytes :=
  if width ≤ i.operand.length then some (i.operand.drop width) else none

def exactly? (i : Instruction) (count : Nat) : Option Bytes :=
  if i.operand.length = count then some i.operand else none

/-- The action, unless something it takes from the operand is not there. -/
def checkedAction? (i : Instruction) : Option Action :=
  match i.opcode with
  | .PUSHDATA1 => (i.behind? 1).map fun data => .push (.byteString data)
  | .PUSHDATA2 => (i.behind? 2).map fun data => .push (.byteString data)
  | .PUSHDATA4 => (i.behind? 4).map fun data => .push (.byteString data)
  | .SYSCALL => (i.exactly? 4).map fun name => .service (Bytes.toNat name)
  | .INITSSLOT => (i.byte? 0).map .openStatics
  | .INITSLOT => (i.byte? 0).bind fun locals => (i.byte? 1).map (.openSlots locals)
  | .LDSFLD => (i.byte? 0).map (.load .statics)
  | .STSFLD => (i.byte? 0).map (.store .statics)
  | .LDLOC => (i.byte? 0).map (.load .locals)
  | .STLOC => (i.byte? 0).map (.store .locals)
  | .LDARG => (i.byte? 0).map (.load .arguments)
  | .STARG => (i.byte? 0).map (.store .arguments)
  | _ => some i.action

theorem byteThere {i : Instruction} {index : Nat} (inside : index < i.operand.length) :
    i.byte? index = some (i.operandByte index) := by
  simp [byte?, operandByte, inside]

theorem behindThere {i : Instruction} {width : Nat} (inside : width ≤ i.operand.length) :
    i.behind? width = some (i.operand.drop width) := if_pos inside

theorem exactlyThere {i : Instruction} {count : Nat} (whole : i.operand.length = count) :
    i.exactly? count = some i.operand := if_pos whole

theorem checkedFits {i : Instruction} (fits : i.Fits) : i.checkedAction? = some i.action := by
  obtain ⟨opcode,operand⟩ := i
  unfold checkedAction?
  split
  case h_1 named | h_2 named | h_3 named =>
    cases named
    rw [behindThere fits.1]
    rfl
  case h_4 named =>
    cases named
    rw [exactlyThere fits]
    rfl
  case h_6 named =>
    cases named
    have width : operand.length = 2 := fits
    rw [byteThere (show 0 < operand.length by omega), byteThere (show 1 < operand.length by omega)]
    rfl
  case h_13 => rfl
  case h_5 named | h_7 named | h_8 named | h_9 named | h_10 named | h_11 named | h_12 named =>
    cases named
    have width : operand.length = 1 := fits
    rw [byteThere (show 0 < operand.length by omega)]
    rfl

end Instruction

theorem fetchedInside {script : Bytes} {position length : Nat} {i : Instruction}
    (fetched : fetch script position = .instruction i length) :
    0 < length ∧ position + length ≤ script.length := by
  obtain ⟨_,whole,there⟩ := fetchedEncoded fetched
  have bound := there.length_le
  rw [List.length_drop] at bound
  rw [whole, Instruction.encodeLength] at *
  omega

/-- The instructions read from a position on, and the position behind the last of them. -/
def disassemble (script : Bytes) (position : Nat) : List Instruction × Nat :=
  match _fetched : fetch script position with
  | .instruction i length =>
    let later := disassemble script (position + length)
    (i :: later.1,later.2)
  | .ended | .invalid => ([],position)
termination_by script.length - position
decreasing_by
  have inside := fetchedInside _fetched
  omega

theorem disassembleOnward {script : Bytes} {position length : Nat} {i : Instruction}
    (fetched : fetch script position = .instruction i length) :
    disassemble script position =
      (i :: (disassemble script (position + length)).1,
        (disassemble script (position + length)).2) := by
  rw [disassemble]
  split
  · next same =>
    cases fetched.symm.trans same
    rfl
  · next same => cases fetched.symm.trans same
  · next same => cases fetched.symm.trans same

theorem fetchEnd (script : Bytes) : fetch script script.length = .ended := by
  rw [fetch, List.drop_length]

theorem disassembleEnd (script : Bytes) : disassemble script script.length = ([],script.length) := by
  rw [disassemble]
  split
  · next same => cases (fetchEnd script).symm.trans same
  · rfl
  · rfl

-- Read at any place where the assembled instructions are all that is left of a script.
theorem disassembleAssembled {script : Bytes} {position : Nat} {is : List Instruction}
    (fit : ∀ i ∈ is, i.Fits) (inside : position ≤ script.length)
    (left : script.drop position = Instruction.assemble is) :
    disassemble script position = (is,script.length) := by
  induction is generalizing position with
  | nil =>
    have stop : position = script.length :=
      Nat.le_antisymm inside (List.drop_eq_nil_iff.mp left)
    rw [stop]
    exact disassembleEnd script
  | cons i rest ih =>
    have here : i.encode <+: script.drop position := left ▸ List.prefix_append i.encode _
    have fetched := fetchEncoded (fit i List.mem_cons_self) here
    have behind : script.drop (position + i.encode.length) = Instruction.assemble rest := by
      rw [← List.drop_drop, left]
      exact List.drop_left
    rw [disassembleOnward fetched, ih (fun i later => fit i (List.mem_cons_of_mem _ later))
      (fetchedInside fetched).2 behind]

structure Disassembled (script : Bytes) (position : Nat) (is : List Instruction) (stop : Nat) :
    Prop where
  fit : ∀ i ∈ is, i.Fits
  text : Instruction.assemble is = (script.drop position).take (stop - position)
  onward : position ≤ stop
  done : (fetch script stop).instruction? = none

theorem disassembled (script : Bytes) (position : Nat) :
    Disassembled script position (disassemble script position).1 (disassemble script position).2 := by
  fun_induction disassemble script position with
  | case1 position i length fetched later ih =>
    obtain ⟨fits,whole,there⟩ := fetchedEncoded fetched
    have first : i.encode = (script.drop position).take length :=
      whole ▸ List.prefix_iff_eq_take.mp there
    have onward : position + length ≤ later.2 := ih.onward
    have split : later.2 - position = length + (later.2 - (position + length)) := by omega
    refine ⟨List.forall_mem_cons.mpr ⟨fits,ih.fit⟩,?_,by omega,ih.done⟩
    rw [Instruction.assemble, List.flatMap_cons, split, List.take_add, ← first, List.drop_drop]
    exact congrArg (i.encode ++ ·) ih.text
  | case2 position finished | case3 position finished =>
    refine ⟨nofun,?_,Nat.le_refl position,by rw [finished]; rfl⟩
    rw [Nat.sub_self]
    rfl

theorem readsBackAssembly :
    (∀ is : List Instruction, (∀ i ∈ is, i.Fits) →
      let script := Instruction.assemble is
      disassemble script 0 = (is,script.length) ∧ fetch script script.length = .ended) ∧
    (∀ script position i length, fetch script position = .instruction i length →
      position + length ≤ script.length ∧
      (script.drop position).take length = i.opcode.byte :: i.operand ∧
      i.Fits ∧ i.checkedAction? = some i.action) ∧
    ∀ script position,
      Disassembled script position (disassemble script position).1
        (disassemble script position).2 := by
  refine ⟨fun is fit => ⟨disassembleAssembled fit (Nat.zero_le _) rfl,fetchEnd _⟩,
    fun script position i length fetched => ?_,disassembled⟩
  obtain ⟨fits,whole,there⟩ := fetchedEncoded fetched
  refine ⟨(fetchedInside fetched).2,?_,fits,Instruction.checkedFits fits⟩
  rw [whole]
  exact (List.prefix_iff_eq_take.mp there).symm

end ScriptDebugger
