import Mathlib.Tactic.FinCases
import ScriptDebugger.Proofs.Machine.Storing
import ScriptDebugger.Proofs.Script.Disassembly
import ScriptDebugger.Proofs.Script.Emission

/-! Integers on their way through scripts and storage. What is emitted for an integer is one instruction,
which pushes it, and none that pushes the same integer is shorter. The bytes stored for it are read as
that integer again, and no fewer bytes are. -/
namespace ScriptDebugger

namespace Opcode

def ownPushes : List Opcode :=
  [.PUSHM1,.PUSH0,.PUSH1,.PUSH2,.PUSH3,.PUSH4,.PUSH5,.PUSH6,.PUSH7,.PUSH8,.PUSH9,.PUSH10,.PUSH11,
    .PUSH12,.PUSH13,.PUSH14,.PUSH15,.PUSH16]

def operandPushes : List Opcode := [.PUSHINT8,.PUSHINT16,.PUSHINT32,.PUSHINT64,.PUSHINT128]

end Opcode

namespace Emission

theorem ownPushed {op : Opcode} (listed : op ∈ Opcode.ownPushes) (operand : Bytes) :
    ∃ m : Int, -1 ≤ m ∧ m ≤ 16 ∧ Instruction.action ⟨op,operand⟩ = .push (.integer m) := by
  refine ⟨(op.code : Int) - Opcode.PUSH0.code,?_⟩
  fin_cases listed <;> exact ⟨by decide,by decide,rfl⟩

theorem operandPushed {op : Opcode} (listed : op ∈ Opcode.operandPushes) {operand : Bytes}
    (fits : Instruction.Fits ⟨op,operand⟩) :
    operand.length ∈ [1,2,4,8,16] ∧
      Instruction.action ⟨op,operand⟩ = .push (.integer (Bytes.toInt128 operand)) := by
  fin_cases listed <;> exact ⟨by simp [show operand.length = _ from fits],rfl⟩

theorem integerPushed {j : Instruction} (fits : j.Fits)
    (listed : j.opcode ∈ Opcode.ownPushes ++ Opcode.operandPushes) :
    ∃ m, j.action = .push (.integer m) := by
  rcases List.mem_append.mp listed with own | within
  · obtain ⟨m,_,_,pushed⟩ := ownPushed own j.operand
    exact ⟨m,pushed⟩
  · exact ⟨_,(operandPushed within fits).2⟩

theorem intPushLeast {width wide : Nat} (listed : wide ∈ [1,2,4,8,16]) (order : width ≤ wide) :
    (intPush width).2 ≤ wide := by
  unfold intPush
  simp only [List.mem_cons, List.not_mem_nil, or_false] at listed
  split_ifs <;> dsimp only <;> omega

theorem intLength (i : Int) :
    (int i).length ≤ if -1 ≤ i ∧ i ≤ 16 then 1 else (intPush (Bytes.minimalWidth i)).2 + 1 := by
  unfold int
  split
  · exact Nat.le_refl 1
  · refine Nat.succ_le_succ ?_
    exact (List.length_take_le _ _)

-- An operand that spells the integer is at least as wide as the integer needs.
theorem shortestPush {j : Instruction} {i : Int} (fits : j.Fits)
    (listed : j.opcode ∈ Opcode.ownPushes ++ Opcode.operandPushes)
    (pushes : j.action = .push (.integer i)) : (int i).length ≤ j.encode.length := by
  obtain ⟨op,operand⟩ := j
  have length := intLength i
  rw [Instruction.encodeLength]
  split at length
  · omega
  · next wide =>
    rcases List.mem_append.mp listed with own | within
    · obtain ⟨m,low,high,pushed⟩ := ownPushed own operand
      cases pushes.symm.trans pushed
      exact absurd ⟨low,high⟩ wide
    · obtain ⟨width,pushed⟩ := operandPushed within fits
      cases pushes.symm.trans pushed
      have narrow : 1 ≤ operand.length ∧ operand.length ≤ 16 := by
        simp only [List.mem_cons, List.not_mem_nil, or_false] at width
        omega
      have holds := Bytes.readHolds narrow.2
      have ranged : InInt128 (Bytes.toInt128 operand) := Bytes.holdsWider narrow.2 holds
      have least := intPushLeast width (Bytes.minimalWidthLeast ranged narrow.1 holds)
      exact length.trans (Nat.succ_le_succ least)

end Emission

theorem StackItem.shortestReadBack {i : Int} (fits : InInt128 i) :
    (byteString (Bytes.ofIntShortest i)).toInt? = some i := by
  rw [toInt?, if_pos (Bytes.shortestLength i), Bytes.shortestReadBack fits]

theorem StackItem.shortestRead {bytes : Bytes} {i : Int} (fits : InInt128 i)
    (read : (byteString bytes).toInt? = some i) :
    (Bytes.ofIntShortest i).length ≤ bytes.length := by
  rw [toInt?] at read
  split at read
  · next short =>
    cases read
    exact Bytes.shortestLeast short fits
  · contradiction

namespace Engine

theorem integersSurvive {i : Int} (fits : InInt128 i) :
    (∃ own, disassemble (Emission.int i) 0 = ([own],(Emission.int i).length)) ∧
    Turns (Emission.int i) 1 [] [.integer i] ∧
    (∀ j : Instruction, j.Fits → j.opcode ∈ Opcode.ownPushes ++ Opcode.operandPushes →
      Turns j.encode 1 [] [.integer i] → (Emission.int i).length ≤ j.encode.length) ∧
    (StackItem.byteString (Bytes.ofIntShortest i)).toInt? = some i ∧
    (∀ bytes, (StackItem.byteString bytes).toInt? = some i →
      (Bytes.ofIntShortest i).length ≤ bytes.length) ∧
    ∀ (e : Engine) (f : Frame) (rest : List Frame) (keyItem : StackItem) (key : Bytes)
      (below : List StackItem),
      e.CallsService .storagePut f rest [keyItem,.integer i] below → keyItem.bytes? = some key →
      (∃ ledger, e.executeNext = { e.past f rest 1 5 below with ledger }) ∧
      ∀ n, ¬ Stored e.executeNext n ⟨f.contract,key⟩ →
        ∀ (g : Frame) (others : List Frame) (again : StackItem) (kept : List StackItem),
          (executeNext^[n] e.executeNext).CallsService .storageGet g others [again] kept →
          again.bytes? = some key → g.contract = f.contract →
          ∃ item, item.toInt? = some i ∧
            executeNext^[n + 1] e.executeNext =
              (executeNext^[n] e.executeNext).past g others 1 5 (item :: kept) := by
  obtain ⟨own,ownFits,code,action⟩ := Emission.pushesInt fits
  have readBack := StackItem.shortestReadBack fits
  refine ⟨⟨own,?_⟩,code ▸ turnsPush ownFits action,?_,readBack,
    fun bytes => StackItem.shortestRead fits,?_⟩
  · refine disassembleAssembled (List.forall_mem_singleton.mpr ownFits) (Nat.zero_le _) ?_
    rw [List.drop_zero, code]
    exact (List.append_nil _).symm
  · intro j jFits listed turns
    obtain ⟨m,pushes⟩ := Emission.integerPushed jFits listed
    cases turnsOnce turns (turnsPush jFits pushes)
    exact Emission.shortestPush jFits listed pushes
  · intro e f rest keyItem key below puts named
    refine ⟨⟨_,executePut puts named⟩,?_⟩
    intro n other g others again kept gets sameKey sameContract
    exact ⟨_,readBack,storedReadBack puts named other gets sameKey sameContract⟩

-- Stores an integer under a key and reads it back, with a push of the key in between.
def storingFrame (i : Int) : Frame :=
  { contract := .zero
    script := Emission.syscall Interop.storagePut.code ++ Emission.data [7] ++
      Emission.syscall Interop.storageGet.code
    entry := .script
    evaluation := [.byteString [7],.integer i] }

def storingEngine (i : Int) : Engine := { frames := [storingFrame i], gasLimit := 3, ledger := .empty }

theorem leastIntegerSurvives :
    let least : Int := -2 ^ 127
    InInt128 least ∧ Turns (Emission.int least) 1 [] [.integer least] ∧
      ∃ item : StackItem, item.toInt? = some least ∧
        (executeNext^[3] (storingEngine least)).frames =
          [{ storingFrame least with position := 13, evaluation := [item] }] := by
  intro least
  have fits : InInt128 least := by decide
  obtain ⟨_,turns,_,_,_,storing⟩ := integersSurvive fits
  obtain ⟨_,readBack⟩ := storing (storingEngine least) (storingFrame least) [] (.byteString [7]) [7] []
    ⟨rfl,rfl,List.prefix_append _ _,rfl,by decide⟩ rfl
  have quiet : ¬ Stored (storingEngine least).executeNext 1 ⟨.zero,[7]⟩ := by
    rintro ⟨k,below,stores⟩
    obtain rfl : k = 0 := Nat.lt_one_iff.mp below
    have none : (storingEngine least).executeNext.stores? = none := rfl
    exact nomatch none.symm.trans stores
  obtain ⟨item,same,ran⟩ := readBack 1 quiet
    { storingFrame least with position := 8, evaluation := [.byteString [7]] } [] (.byteString [7]) []
    ⟨rfl,rfl,by exact List.prefix_rfl,rfl,by decide⟩ rfl rfl
  exact ⟨fits,turns,item,same,congrArg frames ran⟩

end Engine

end ScriptDebugger
