import ScriptDebugger.Bytes.Hex
import ScriptDebugger.Proofs.Text.Utf8

/-! Bytes in hexadecimal read back: each of the two digits of a byte is one byte of text, read as that
digit's value. A text is read if it has digits only, in either case, and an even number of them; in
lower case it is then the text of the bytes read. -/
namespace ScriptDebugger.Hex

/-- Digits by twos, and the bytes they are the halves of. -/
inductive Pairs : Bytes → Bytes → Prop where
  | nil : Pairs [] []
  | cons {high low h l digits bytes} (first : digitValue? high = some h)
      (second : digitValue? low = some l) (tail : Pairs digits bytes) :
      Pairs (high :: low :: digits) (UInt8.ofNat (16 * h + l) :: bytes)

theorem pairsEven {digits bytes : Bytes} (pairs : Pairs digits bytes) : digits.length % 2 = 0 := by
  induction pairs with
  | nil => rfl
  | cons first second tail ih => simp [Nat.add_assoc, ih]

theorem pairsTaken {digits bytes : Bytes} (pairs : Pairs digits bytes) (position : Nat) :
    decodePairs position digits = .ok bytes := by
  induction pairs generalizing position with
  | nil => rfl
  | cons first second tail ih =>
    simp only [decodePairs, first, second, ih]
    rfl

theorem pairsTake {digits bytes : Bytes} {position : Nat} (even : digits.length % 2 = 0)
    (read : decodePairs position digits = .ok bytes) : Pairs digits bytes := by
  fun_induction decodePairs position digits generalizing bytes with
  | case1 position high low rest h first l second ih =>
    simp only [List.length_cons, Nat.add_assoc, Nat.add_mod_right] at even
    cases onward : decodePairs (position + 2) rest with
    | error cause =>
      rw [onward] at read
      cases read
    | ok others =>
      rw [onward] at read
      cases read
      exact .cons first second (ih even onward)
  | case2 => cases read
  | case3 => cases read
  | case4 digits position short =>
    cases read
    match digits, short with
    | [], _ => exact .nil
    | [_], _ => cases even
    | _ :: _ :: _, short => exact (short _ _ _ rfl).elim

theorem decodeExact {text : String} {bytes : Bytes} :
    decode text = .ok bytes ↔ Pairs (Utf8.encode text) bytes := by
  unfold decode
  constructor
  · intro read
    dsimp only at read
    split at read
    · cases read
    · next even => exact pairsTake (Nat.mod_two_ne_one.mp even) read
  · intro pairs
    exact (if_neg (by rw [← Utf8.encode, pairsEven pairs]; decide)).trans (pairsTaken pairs 0)

def digitByte (n : Nat) : UInt8 := UInt8.ofNat (digit n).toNat

theorem digitRead {n : Nat} (small : n < 16) :
    String.utf8EncodeChar (digit n) = [digitByte n] ∧ digitValue? (digitByte n) = some n := by
  revert n
  decide

def digitBytes (b : UInt8) : Bytes := [digitByte (b.toNat / 16),digitByte (b.toNat % 16)]

theorem digitsSmall (b : UInt8) : b.toNat / 16 < 16 ∧ b.toNat % 16 < 16 := by
  have bound := b.toNat_lt
  omega

theorem encodedBytes (bytes : Bytes) :
    (encode bytes).toUTF8.toList = bytes.flatMap digitBytes := by
  change Utf8.encode (encode bytes) = _
  rw [Utf8.encodeChars, encode, String.toList_ofList]
  induction bytes with
  | nil => rfl
  | cons b rest ih =>
    obtain ⟨high,low⟩ := digitsSmall b
    simp only [List.flatMap_cons, List.flatMap_append, ofByte, List.flatMap_nil, digitBytes,
      (digitRead high).1, (digitRead low).1, ih, List.append_nil, List.singleton_append]

theorem pairsEncoded (bytes : Bytes) : Pairs (bytes.flatMap digitBytes) bytes := by
  induction bytes with
  | nil => exact .nil
  | cons b rest ih =>
    obtain ⟨high,low⟩ := digitsSmall b
    have whole : UInt8.ofNat (16 * (b.toNat / 16) + b.toNat % 16) = b := by
      rw [Nat.div_add_mod, UInt8.ofNat_toNat]
    have both := Pairs.cons (digitRead high).2 (digitRead low).2 ih
    rwa [whole] at both

theorem decodeEncode (bytes : Bytes) : decode (encode bytes) = .ok bytes := by
  rw [decodeExact, Utf8.encode, encodedBytes]
  exact pairsEncoded bytes

/-! Texts that are read -/

def digits : List Char := "0123456789abcdefABCDEF".toList

/-- A digit in either case. -/
def Digit (c : Char) : Prop := c ∈ digits

instance (c : Char) : Decidable (Digit c) := by unfold Digit; infer_instance

theorem digitEncoded {c : Char} (hex : Digit c) :
    ∃ b n, String.utf8EncodeChar c = [b] ∧ digitValue? b = some n := by
  have table : digits.all fun c => String.utf8EncodeChar c = [UInt8.ofNat c.toNat] ∧
      (digitValue? (UInt8.ofNat c.toNat)).isSome := by
    decide
  obtain ⟨encoded,read⟩ := of_decide_eq_true (List.all_eq_true.mp table c hex)
  obtain ⟨n,value⟩ := Option.isSome_iff_exists.mp read
  exact ⟨_,n,encoded,value⟩

theorem codeRead : ∀ code < 0x80, ∀ n ∈ digitValue? (UInt8.ofNat code),
    Digit (Char.ofNat code) ∧ (Char.ofNat code).toLower = digit n := by
  decide

theorem asciiEncoded {c : Char} (ascii : c.toNat < 0x80) :
    String.utf8EncodeChar c = [UInt8.ofNat c.toNat] := by
  have small : c.val.toNat ≤ 0x7F := Nat.le_of_lt_succ ascii
  exact if_pos small

theorem valueAscii {b : UInt8} {n : Nat} (value : digitValue? b = some n) : b.toNat < 0x80 ∧ n < 16 := by
  simp only [digitValue?, UInt8.le_iff_toNat_le, UInt8.reduceToNat] at value
  split at value
  · cases value
    omega
  · split at value
    · cases value
      omega
    · split at value
      · cases value
        omega
      · contradiction

theorem leadsBeyond {c : Char} {b : UInt8} {rest : Bytes} (beyond : 0x80 ≤ c.toNat)
    (bytes : String.utf8EncodeChar c = b :: rest) : 0x80 ≤ b.toNat := by
  have large : ¬ c.val.toNat ≤ 0x7F := Nat.not_le.mpr beyond
  have first : ∃ v, v < 0x80 ∧ b = UInt8.ofNat (v + 0x80) := by
    unfold String.utf8EncodeChar at bytes
    dsimp only at bytes
    rw [if_neg large] at bytes
    split at bytes
    · exact ⟨_,by omega,(List.cons.inj bytes).1.symm⟩
    · split at bytes
      · cases bytes
        exact ⟨_,by omega,rfl⟩
      · cases bytes
        exact ⟨_,by omega,rfl⟩
  obtain ⟨v,small,rfl⟩ := first
  rw [UInt8.toNat_ofNat_of_lt' (show v + 0x80 < 256 by omega)]
  omega

theorem charRead {c : Char} {b : UInt8} {rest : Bytes} {n : Nat}
    (bytes : String.utf8EncodeChar c = b :: rest) (value : digitValue? b = some n) :
    rest = [] ∧ Digit c ∧ c.toLower = digit n := by
  have ascii : c.toNat < 0x80 := by
    refine Nat.lt_of_not_le fun beyond => ?_
    have lead := leadsBeyond beyond bytes
    have small := (valueAscii value).1
    omega
  rw [asciiEncoded ascii] at bytes
  cases bytes
  have read := codeRead c.toNat ascii n value
  rw [Char.ofNat_toNat] at read
  exact ⟨rfl,read⟩

theorem halvesDigits {h l : Nat} (high : h < 16) (low : l < 16) :
    ofByte (UInt8.ofNat (16 * h + l)) = [digit h,digit l] := by
  have first : (16 * h + l) / 16 = h := by omega
  have second : (16 * h + l) % 16 = l := by omega
  rw [ofByte, UInt8.toNat_ofNat_of_lt' (show 16 * h + l < 256 by omega), first, second]

theorem charTaken {cs : List Char} {b : UInt8} {rest : Bytes} {n : Nat}
    (bytes : cs.flatMap String.utf8EncodeChar = b :: rest) (value : digitValue? b = some n) :
    ∃ c more, cs = c :: more ∧ Digit c ∧ c.toLower = digit n ∧
      more.flatMap String.utf8EncodeChar = rest := by
  cases cs with
  | nil => cases bytes
  | cons c more =>
    rw [List.flatMap_cons] at bytes
    cases own : String.utf8EncodeChar c with
    | nil => exact absurd own String.utf8EncodeChar_ne_nil
    | cons lead behind =>
      rw [own] at bytes
      cases bytes
      obtain ⟨rfl,hex,lower⟩ := charRead own value
      exact ⟨c,more,rfl,hex,lower,rfl⟩

theorem pairsSpelt {digits bytes : Bytes} (pairs : Pairs digits bytes) {cs : List Char}
    (same : cs.flatMap String.utf8EncodeChar = digits) :
    (∀ c ∈ cs, Digit c) ∧ cs.map Char.toLower = bytes.flatMap ofByte := by
  induction pairs generalizing cs with
  | nil =>
    cases cs with
    | nil => simp
    | cons c more => simp at same
  | cons first second tail ih =>
    obtain ⟨c,more,rfl,hexHigh,high,same⟩ := charTaken same first
    obtain ⟨d,more,rfl,hexLow,low,same⟩ := charTaken same second
    obtain ⟨hex,lower⟩ := ih same
    constructor
    · simp only [List.mem_cons, forall_eq_or_imp]
      exact ⟨hexHigh,hexLow,hex⟩
    · rw [List.flatMap_cons, halvesDigits (valueAscii first).2 (valueAscii second).2, ← lower,
        ← high, ← low]
      rfl

theorem pairsGiven : ∀ {cs : List Char}, cs.length % 2 = 0 → (∀ c ∈ cs, Digit c) →
    ∃ bytes, Pairs (cs.flatMap String.utf8EncodeChar) bytes
  | [], _, _ => ⟨[],.nil⟩
  | [_], odd, _ => by cases odd
  | c :: d :: cs, even, hex => by
    obtain ⟨high,h,encoded,first⟩ := digitEncoded (hex c (by simp))
    obtain ⟨low,l,behind,second⟩ := digitEncoded (hex d (by simp))
    simp only [List.length_cons, Nat.add_assoc, Nat.add_mod_right] at even
    obtain ⟨bytes,tail⟩ := pairsGiven even fun c member => hex c (by simp [member])
    refine ⟨UInt8.ofNat (16 * h + l) :: bytes,?_⟩
    rw [List.flatMap_cons, List.flatMap_cons, encoded, behind]
    exact .cons first second tail

theorem lowerChars (text : String) : text.toLower.toList = text.toList.map Char.toLower :=
  String.toList_map

theorem lowerLength (text : String) : text.toLower.length = text.length := by
  rw [← String.length_toList, lowerChars, List.length_map, String.length_toList]

theorem decodedText {text : String} {bytes : Bytes} (read : decode text = .ok bytes) :
    (∀ c ∈ text.toList, Digit c) ∧ text.toLower = encode bytes := by
  have pairs := decodeExact.mp read
  rw [Utf8.encodeChars] at pairs
  obtain ⟨hex,lower⟩ := pairsSpelt pairs rfl
  exact ⟨hex,by rw [encode, ← lower, ← lowerChars, String.ofList_toList]⟩

theorem encodeLength (bytes : Bytes) : (encode bytes).length = 2 * bytes.length := by
  induction bytes with
  | nil => rfl
  | cons b rest ih =>
    simp [encode, ofByte] at ih ⊢
    omega

theorem decodeDigits {text : String} (even : text.length % 2 = 0) (hex : ∀ c ∈ text.toList, Digit c) :
    ∃ bytes, decode text = .ok bytes := by
  rw [← String.length_toList] at even
  obtain ⟨bytes,pairs⟩ := pairsGiven even hex
  exact ⟨bytes,decodeExact.mpr (by rwa [Utf8.encodeChars])⟩

end ScriptDebugger.Hex
