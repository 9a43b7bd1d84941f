import ScriptDebugger.Text.Utf8

/-! Text read back from UTF-8. The lossy reading takes the one to four bytes of a character for that
character, and goes on between characters; so it gives back every text that was encoded. -/
namespace ScriptDebugger.Utf8

theorem opensWhole {n : Nat} (ascii : n < 0x80) :
    opening (UInt8.ofNat n) = .whole (Char.ofNat n) := by
  unfold opening
  rw [UInt8.toNat_ofNat_of_lt' (Nat.lt_trans ascii (by decide))]
  exact if_pos ascii

theorem opensTwo {n : Nat} (high : n < 30) :
    opening (UInt8.ofNat (n + 0xC2)) = .begun ⟨n + 2,1,0x80,0xBF⟩ := by
  revert n
  decide

-- Forms longer than needed start with 0xE0, surrogates with 0xED.
theorem opensThree {n : Nat} (high : n < 16) :
    opening (UInt8.ofNat (n + 0xE0)) =
      .begun ⟨n,2,if n = 0 then 0xA0 else 0x80,if n = 13 then 0x9F else 0xBF⟩ := by
  revert n
  decide

-- Forms longer than needed start with 0xF0, numbers past the last character with 0xF4.
theorem opensFour {n : Nat} (high : n < 5) :
    opening (UInt8.ofNat (n + 0xF0)) =
      .begun ⟨n,3,if n = 0 then 0x90 else 0x80,if n = 4 then 0x8F else 0xBF⟩ := by
  revert n
  decide

theorem lossyWhole {b : UInt8} {c : Char} (opens : opening b = .whole c) (rest : Bytes) :
    lossyFrom none (b :: rest) = c :: lossyFrom none rest := by
  simp only [lossyFrom, opens, List.nil_append]

theorem lossyBegun {b : UInt8} {p : Begun} (opens : opening b = .begun p) (rest : Bytes) :
    lossyFrom none (b :: rest) = lossyFrom (some p) rest := by
  simp only [lossyFrom, opens, List.nil_append]

theorem continues {n : Nat} (small : n < 64) :
    (0x80 : UInt8).toNat ≤ n + 0x80 ∧ n + 0x80 ≤ (0xBF : UInt8).toNat := by
  change 0x80 ≤ n + 0x80 ∧ n + 0x80 ≤ 0xBF
  omega

theorem byteInside {low high : UInt8} {n : Nat}
    (inside : low.toNat ≤ n + 0x80 ∧ n + 0x80 ≤ high.toNat) :
    (UInt8.ofNat (n + 0x80)).toNat = n + 0x80 ∧
      low ≤ UInt8.ofNat (n + 0x80) ∧ UInt8.ofNat (n + 0x80) ≤ high := by
  have own := UInt8.toNat_ofNat_of_lt' (Nat.lt_of_le_of_lt inside.2 high.toNat_lt)
  rw [UInt8.le_iff_toNat_le, UInt8.le_iff_toNat_le, own]
  exact ⟨rfl,inside⟩

theorem lossyNext {bits owed n : Nat} {low high : UInt8}
    (inside : low.toNat ≤ n + 0x80 ∧ n + 0x80 ≤ high.toNat) (rest : Bytes) :
    lossyFrom (some ⟨bits,owed + 2,low,high⟩) (UInt8.ofNat (n + 0x80) :: rest) =
      lossyFrom (some ⟨bits * 64 + n,owed + 1,0x80,0xBF⟩) rest := by
  obtain ⟨own,within⟩ := byteInside inside
  have more : owed + 2 ≠ 1 := by omega
  simp only [lossyFrom, if_pos within, own, Nat.add_sub_cancel, if_neg more]
  rfl

theorem lossyLast {bits n : Nat} {low high : UInt8}
    (inside : low.toNat ≤ n + 0x80 ∧ n + 0x80 ≤ high.toNat) (rest : Bytes) :
    lossyFrom (some ⟨bits,1,low,high⟩) (UInt8.ofNat (n + 0x80) :: rest) =
      Char.ofNat (bits * 64 + n) :: lossyFrom none rest := by
  obtain ⟨own,within⟩ := byteInside inside
  simp only [lossyFrom, if_pos within, own, Nat.add_sub_cancel, if_pos]

theorem lossyOfTwo {v : Nat} (low : 0x80 ≤ v) (high : v ≤ 0x7FF) (rest : Bytes) :
    lossyFrom none (UInt8.ofNat (v / 64 % 32 + 0xC0) :: UInt8.ofNat (v % 64 + 0x80) :: rest) =
      Char.ofNat v :: lossyFrom none rest := by
  obtain ⟨n,lead⟩ : ∃ n, v / 64 % 32 = n + 2 := ⟨v / 64 % 32 - 2,by omega⟩
  have whole : (n + 2) * 64 + v % 64 = v := by omega
  have last := continues (show v % 64 < 64 by omega)
  rw [lead, lossyBegun (opensTwo (by omega)), lossyLast last, whole]

theorem lossyOfThree {v : Nat} (low : 0x800 ≤ v) (high : v ≤ 0xFFFF)
    (valid : v < 0xD800 ∨ 0xDFFF < v) (rest : Bytes) :
    lossyFrom none (UInt8.ofNat (v / 4096 % 16 + 0xE0) :: UInt8.ofNat (v / 64 % 64 + 0x80) ::
      UInt8.ofNat (v % 64 + 0x80) :: rest) = Char.ofNat v :: lossyFrom none rest := by
  have whole : (v / 4096 % 16 * 64 + v / 64 % 64) * 64 + v % 64 = v := by omega
  have second : (if v / 4096 % 16 = 0 then (0xA0 : UInt8) else 0x80).toNat ≤ v / 64 % 64 + 0x80 ∧
      v / 64 % 64 + 0x80 ≤ (if v / 4096 % 16 = 13 then (0x9F : UInt8) else 0xBF).toNat := by
    constructor <;> split <;> simp only [UInt8.reduceToNat] <;> omega
  have last := continues (show v % 64 < 64 by omega)
  rw [lossyBegun (opensThree (by omega)), lossyNext second, lossyLast last, whole]

theorem lossyOfFour {v : Nat} (low : 0x10000 ≤ v) (high : v < 0x110000) (rest : Bytes) :
    lossyFrom none (UInt8.ofNat (v / 262144 % 8 + 0xF0) :: UInt8.ofNat (v / 4096 % 64 + 0x80) ::
      UInt8.ofNat (v / 64 % 64 + 0x80) :: UInt8.ofNat (v % 64 + 0x80) :: rest) =
      Char.ofNat v :: lossyFrom none rest := by
  have whole : ((v / 262144 % 8 * 64 + v / 4096 % 64) * 64 + v / 64 % 64) * 64 + v % 64 = v := by
    omega
  have second : (if v / 262144 % 8 = 0 then (0x90 : UInt8) else 0x80).toNat ≤
        v / 4096 % 64 + 0x80 ∧
      v / 4096 % 64 + 0x80 ≤ (if v / 262144 % 8 = 4 then (0x8F : UInt8) else 0xBF).toNat := by
    constructor <;> split <;> simp only [UInt8.reduceToNat] <;> omega
  have third := continues (show v / 64 % 64 < 64 by omega)
  have last := continues (show v % 64 < 64 by omega)
  rw [lossyBegun (opensFour (by omega)), lossyNext second, lossyNext third, lossyLast last, whole]

theorem lossyOfChar (c : Char) (rest : Bytes) :
    lossyFrom none (String.utf8EncodeChar c ++ rest) = c :: lossyFrom none rest := by
  have valid : c.val.toNat < 0xD800 ∨ 0xDFFF < c.val.toNat ∧ c.val.toNat < 0x110000 := c.valid
  have whole : Char.ofNat c.val.toNat = c := Char.ofNat_toNat c
  unfold String.utf8EncodeChar
  generalize c.val.toNat = v at valid whole
  dsimp only
  rw [← whole]
  split
  · next one => exact lossyWhole (opensWhole (by omega)) rest
  · split
    · next two => exact lossyOfTwo (by omega) two rest
    · split
      · next three => exact lossyOfThree (by omega) three (by omega) rest
      · exact lossyOfFour (by omega) (by omega) rest

theorem toListLoop (bytes : ByteArray) (i : Nat) (before : Bytes) :
    ByteArray.toList.loop bytes i before = before.reverse ++ bytes.data.toList.drop i := by
  fun_induction ByteArray.toList.loop bytes i before with
  | case1 i before inside ih =>
    have here : i < bytes.data.toList.length := inside
    rw [ih, List.reverse_cons, List.append_assoc, List.drop_eq_getElem_cons here]
    simp [ByteArray.get!, inside]
  | case2 i before outside =>
    have past : bytes.data.toList.length ≤ i := Nat.le_of_not_lt outside
    rw [List.drop_eq_nil_of_le past, List.append_nil]

theorem encodeChars (text : String) : encode text = text.toList.flatMap String.utf8EncodeChar := by
  have bytes : text.toByteArray = (text.toList.flatMap String.utf8EncodeChar).toByteArray :=
    String.utf8Encode_toList.symm
  change text.toByteArray.toList = _
  rw [bytes, ByteArray.toList, toListLoop, List.toList_data_toByteArray]
  rfl

theorem lossyOfChars (chars : List Char) :
    lossyFrom none (chars.flatMap String.utf8EncodeChar) = chars := by
  induction chars with
  | nil => rfl
  | cons c chars ih => rw [List.flatMap_cons, lossyOfChar, ih]

theorem decodeLossyEncode (text : String) : decodeLossy (encode text) = text := by
  rw [decodeLossy, encodeChars, lossyOfChars, String.ofList_toList]

end ScriptDebugger.Utf8
