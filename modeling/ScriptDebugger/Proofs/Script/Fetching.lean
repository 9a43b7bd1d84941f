import ScriptDebugger.Script.Instruction

/-! Fetching what was encoded. Where the bytes of an instruction stand in a script, that instruction
is fetched with its whole length, whatever follows it, provided its operand fits the layout of its
opcode. Nothing else is fetched: the operand fits, and the bytes stand there. -/
namespace ScriptDebugger

namespace Instruction

theorem encodeLength (i : Instruction) : i.encode.length = i.operand.length + 1 := rfl

theorem lengthReadBack {i : Instruction} (fits : i.Fits) (post : Bytes) :
    i.opcode.encodedLength? (i.operand ++ post) = some i.encode.length := by
  unfold Fits at fits
  unfold Opcode.encodedLength?
  cases layout : i.opcode.layout with
  | none =>
    simp only [layout] at fits
    simp [encodeLength, fits]
  | fixed width =>
    simp only [layout] at fits
    simp [encodeLength, fits, Nat.add_comm]
  | prefixed width =>
    simp only [layout] at fits
    obtain ⟨whole,length⟩ := fits
    have present : ¬ (i.operand ++ post).length < width := by
      rw [List.length_append]
      omega
    dsimp only
    rw [if_neg present, List.take_append_of_le_length whole, encodeLength]
    congr 1
    omega

end Instruction

theorem codeOnward {script first second : Bytes} {position : Nat}
    (here : first ++ second <+: script.drop position) :
    second <+: script.drop (position + first.length) := by
  obtain ⟨post,here⟩ := here
  refine ⟨post,?_⟩
  rw [← List.drop_drop, ← here, List.append_assoc, List.drop_left]

theorem fetchEncoded {script : Bytes} {position : Nat} {i : Instruction} (fits : i.Fits)
    (here : i.encode <+: script.drop position) :
    fetch script position = .instruction i i.encode.length := by
  obtain ⟨post,here⟩ := here
  have present : ¬ (i.operand ++ post).length + 1 < i.encode.length := by
    rw [List.length_append, Instruction.encodeLength]
    omega
  unfold fetch
  rw [← here]
  simp only [Instruction.encode, List.cons_append]
  rw [Opcode.byteReadBack]
  dsimp only
  rw [Instruction.lengthReadBack fits post]
  dsimp only
  rw [if_neg present, Instruction.encodeLength, Nat.add_sub_cancel, List.take_left]
  rfl

-- The operand is as many of the bytes behind the opcode as its layout asks for.
theorem operandFits {op : Opcode} {rest : Bytes} {length : Nat}
    (measured : op.encodedLength? rest = some length) (held : length ≤ rest.length + 1) :
    Instruction.Fits ⟨op,rest.take (length - 1)⟩ ∧ 1 ≤ length := by
  unfold Instruction.Fits
  unfold Opcode.encodedLength? at measured
  dsimp only
  cases layout : op.layout with
  | none =>
    rw [layout] at measured
    cases measured
    exact ⟨rfl,Nat.le_refl 1⟩
  | fixed width =>
    rw [layout] at measured
    cases measured
    have taken : (rest.take (1 + width - 1)).length = width := by
      rw [List.length_take]
      omega
    exact ⟨taken,by omega⟩
  | prefixed width =>
    rw [layout] at measured
    dsimp only at measured ⊢
    split at measured
    · contradiction
    · cases measured
      generalize data : Bytes.toNat (rest.take width) = size at held ⊢
      have taken : (rest.take (1 + width + size - 1)).length = width + size := by
        rw [List.length_take]
        omega
      have whole : min width (1 + width + size - 1) = width := by omega
      rw [taken, List.take_take, whole, data]
      exact ⟨⟨by omega,by omega⟩,by omega⟩

theorem fetchedEncoded {script : Bytes} {position length : Nat} {i : Instruction}
    (fetched : fetch script position = .instruction i length) :
    i.Fits ∧ length = i.encode.length ∧ i.encode <+: script.drop position := by
  unfold fetch at fetched
  cases bytes : script.drop position with
  | nil =>
    rw [bytes] at fetched
    contradiction
  | cons b rest =>
    rw [bytes] at fetched
    dsimp only at fetched
    cases named : Opcode.ofByte? b with
    | none =>
      rw [named] at fetched
      contradiction
    | some op =>
      rw [named] at fetched
      dsimp only at fetched
      cases measured : op.encodedLength? rest with
      | none =>
        rw [measured] at fetched
        contradiction
      | some whole =>
        rw [measured] at fetched
        dsimp only at fetched
        split at fetched
        · contradiction
        · next held =>
          cases fetched
          obtain ⟨fits,some⟩ := operandFits measured (Nat.not_lt.mp held)
          refine ⟨fits,?_,?_⟩
          · rw [Instruction.encodeLength, List.length_take]
            omega
          · rw [Instruction.encode, Opcode.readByteExact named]
            exact List.cons_prefix_cons.mpr ⟨rfl,List.take_prefix _ _⟩

end ScriptDebugger
