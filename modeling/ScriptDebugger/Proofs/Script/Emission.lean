import Mathlib.Tactic.IntervalCases
import ScriptDebugger.Machine.Action
import ScriptDebugger.Proofs.Bytes.Widths
import ScriptDebugger.Script.Emission

/-! What is emitted for one value is one instruction. Integers of 128 bits and data whose length
fits four bytes each have a push of theirs, its operand fits its opcode, and the instruction
pushes the very value. -/
namespace ScriptDebugger.Emission

def Pushes (code : Bytes) (item : StackItem) : Prop :=
  ∃ i : Instruction, i.Fits ∧ code = i.encode ∧ i.action = .push item

theorem pushesAny : Pushes (op .PUSHNULL) .any := ⟨⟨.PUSHNULL,[]⟩,rfl,rfl,rfl⟩

theorem pushesEmpty : Pushes (op .NEWARRAY0) (.array []) := ⟨⟨.NEWARRAY0,[]⟩,rfl,rfl,rfl⟩

theorem pushesBool (b : Bool) : Pushes (bool b) (.boolean b) := by
  cases b with
  | true => exact ⟨⟨.PUSHT,[]⟩,rfl,rfl,rfl⟩
  | false => exact ⟨⟨.PUSHF,[]⟩,rfl,rfl,rfl⟩

-- The pushes of the small integers stand in a row in the list of all opcodes.
theorem pushesSmall {i : Int} (low : -1 ≤ i) (high : i ≤ 16) : Pushes (int i) (.integer i) := by
  refine ⟨⟨Opcode.all.getD (14 + i).toNat .NOP,[]⟩,?_⟩
  interval_cases i <;> exact ⟨rfl,rfl,rfl⟩

theorem intPushHolds {width : Nat} {i : Int} (bound : width ≤ 16) (holds : Bytes.Holds width i) :
    ∃ opcode wide, intPush width = (opcode,wide) ∧ wide ≤ 16 ∧ opcode.layout = .fixed wide ∧
      Bytes.Holds wide i ∧
      ∀ operand, Instruction.action ⟨opcode,operand⟩ = .push (.integer (Bytes.toInt128 operand)) := by
  have wider : ∀ wide, width ≤ wide → Bytes.Holds wide i := fun _ order =>
    Bytes.holdsWider order holds
  unfold intPush
  split
  · next order => exact ⟨.PUSHINT8,1,rfl,by decide,rfl,wider 1 order,fun _ => rfl⟩
  · split
    · next order => exact ⟨.PUSHINT16,2,rfl,by decide,rfl,wider 2 order,fun _ => rfl⟩
    · split
      · next order => exact ⟨.PUSHINT32,4,rfl,by decide,rfl,wider 4 order,fun _ => rfl⟩
      · split
        · next order => exact ⟨.PUSHINT64,8,rfl,by decide,rfl,wider 8 order,fun _ => rfl⟩
        · exact ⟨.PUSHINT128,16,rfl,Nat.le_refl 16,rfl,wider 16 bound,fun _ => rfl⟩

theorem pushesInt {i : Int} (fits : InInt128 i) : Pushes (int i) (.integer i) := by
  by_cases small : -1 ≤ i ∧ i ≤ 16
  · exact pushesSmall small.1 small.2
  · obtain ⟨opcode,wide,chosen,narrow,layout,holds,action⟩ :=
      intPushHolds (Bytes.minimalWidthBound i) (Bytes.minimalWidthHolds fits)
    refine ⟨⟨opcode,Bytes.ofInt wide i⟩,?_,?_,?_⟩
    · simp only [Instruction.Fits, layout, Bytes.lengthOfInt]
    · rw [int, if_neg small, chosen]
      exact congrArg (opWith opcode) (Bytes.takeOfInt narrow i)
    · rw [action, Bytes.readBack narrow holds]

theorem dataPushHolds {size : Nat} (bound : size < Bytes.count 4) :
    ∃ opcode width, dataPush size = (opcode,width) ∧ opcode.layout = .prefixed width ∧
      size < Bytes.count width ∧
      ∀ operand,
        Instruction.action ⟨opcode,operand⟩ = .push (.byteString (operand.drop width)) := by
  unfold dataPush
  split
  · next order => exact ⟨.PUSHDATA1,1,rfl,rfl,order,fun _ => rfl⟩
  · split
    · next order => exact ⟨.PUSHDATA2,2,rfl,rfl,order,fun _ => rfl⟩
    · exact ⟨.PUSHDATA4,4,rfl,rfl,bound,fun _ => rfl⟩

theorem pushesData {bytes : Bytes} (bound : bytes.length < Bytes.count 4) :
    Pushes (data bytes) (.byteString bytes) := by
  obtain ⟨opcode,width,chosen,layout,short,action⟩ := dataPushHolds bound
  have written : min bytes.length (Bytes.count 4 - 1) = bytes.length := by omega
  have lengthBytes := Bytes.lengthOfNat width bytes.length
  refine ⟨⟨opcode,Bytes.ofNat width bytes.length ++ bytes⟩,?_,?_,?_⟩
  · simp only [Instruction.Fits, layout, List.length_append, lengthBytes]
    rw [List.take_left' lengthBytes, Bytes.toNatOfNat, Nat.mod_eq_of_lt short]
    exact ⟨Nat.le_add_right _ _,rfl⟩
  · rw [data, chosen, written]
    rfl
  · rw [action, List.drop_left' lengthBytes]

end ScriptDebugger.Emission
