import Mathlib.Logic.Function.Basic
import ScriptDebugger.Contract.Hash
import ScriptDebugger.Proofs.Bytes.Hex

/-! The text of a contract hash. It is written most significant byte first and read the other way
round, so every hash is read back from its text. Any other text that is read differs from that text in
the mark in front and in letter case only, and texts that differ so are the same hash. -/
namespace ScriptDebugger.ContractHash

/-- A text without one `0x` or `0X` at its front. -/
def unprefixed (text : String) : String :=
  if text.toList.take 2 = ['0','x'] ∨ text.toList.take 2 = ['0','X'] then
    String.ofList (text.toList.drop 2)
  else text

theorem digitsUnprefixed (text : String) : digitsOf text = unprefixed text := by
  unfold digitsOf unprefixed
  split
  · next rest whole => simp [whole]
  · next rest whole => simp [whole]
  · next lower upper =>
    have split := List.take_append_drop 2 text.toList
    refine (if_neg ?_).symm
    rintro (front | front)
    · exact lower _ (by rw [← split, front]; rfl)
    · exact upper _ (by rw [← split, front]; rfl)

theorem unprefixedText (hash : ContractHash) :
    unprefixed hash.text = Hex.encode hash.bytes.reverse := by
  have shape : hash.text.toList = '0' :: 'x' :: (Hex.encode hash.bytes.reverse).toList := by
    rw [text, String.toList_append]
    rfl
  simp [unprefixed, shape]

theorem ofBytesExact {bytes : Bytes} {hash : ContractHash} :
    ofBytes? bytes = some hash ↔ bytes = hash.bytes := by
  constructor
  · intro read
    unfold ofBytes? at read
    split at read
    · cases read
      rfl
    · contradiction
  · rintro rfl
    exact bytesReadBack hash

theorem parseExact {text : String} {hash : ContractHash} :
    parse text = .ok hash ↔ Hex.decode (unprefixed text) = .ok hash.bytes.reverse := by
  rw [parse, digitsUnprefixed]
  cases Hex.decode (unprefixed text) with
  | error cause => exact iff_of_false nofun nofun
  | ok bytes =>
    have digits : (Except.ok bytes).mapError ReadError.digits = .ok bytes := rfl
    rw [Except.ok.injEq, ← List.reverse_eq_iff, ← ofBytesExact, digits]
    simp only [bind, Except.bind]
    cases ofBytes? bytes.reverse with
    | none => exact iff_of_false nofun nofun
    | some other =>
      constructor
      · exact fun same => congrArg some (Except.ok.inj same)
      · rintro ⟨⟩
        rfl

theorem textReadBack (hash : ContractHash) : parse hash.text = .ok hash := by
  rw [parseExact, unprefixedText, Hex.decodeEncode]

theorem textInjective : Function.Injective text := by
  intro one two same
  have read := textReadBack one
  rw [same, textReadBack] at read
  exact (Except.ok.inj read).symm

theorem textRead {text : String} {hash : ContractHash} (read : parse text = .ok hash) :
    hash.text = "0x" ++ (unprefixed text).toLower := by
  rw [ContractHash.text, (Hex.decodedText (parseExact.mp read)).2]

theorem textAccepted (text : String) :
    (∃ hash, parse text = .ok hash) ↔
      (unprefixed text).length = 40 ∧ ∀ c ∈ (unprefixed text).toList, Hex.Digit c := by
  constructor
  · rintro ⟨hash,read⟩
    obtain ⟨hex,lower⟩ := Hex.decodedText (parseExact.mp read)
    have size := congrArg String.length lower
    rw [Hex.encodeLength, List.length_reverse, hash.length_eq, Hex.lowerLength] at size
    exact ⟨size,hex⟩
  · rintro ⟨size,hex⟩
    obtain ⟨bytes,read⟩ := Hex.decodeDigits (by rw [size]) hex
    have twice := congrArg String.length (Hex.decodedText read).2
    rw [Hex.encodeLength, Hex.lowerLength, size] at twice
    have length : bytes.reverse.length = 20 := by
      rw [List.length_reverse]
      omega
    exact ⟨⟨bytes.reverse,length⟩,parseExact.mpr (by rw [List.reverse_reverse, read])⟩

theorem textsDenote :
    (∀ text, (∃ hash, parse text = .ok hash) ↔
      (unprefixed text).length = 40 ∧ ∀ c ∈ (unprefixed text).toList, Hex.Digit c) ∧
    (∀ text hash, parse text = .ok hash → hash.text = "0x" ++ (unprefixed text).toLower) ∧
    (∀ hash, parse hash.text = .ok hash) ∧ Function.Injective text ∧
    ∀ one two hash other, parse one = .ok hash → parse two = .ok other →
      (hash = other ↔ (unprefixed one).toLower = (unprefixed two).toLower) := by
  refine ⟨textAccepted,fun _ _ => textRead,textReadBack,textInjective,?_⟩
  intro one two hash other first second
  rw [← textInjective.eq_iff, textRead first, textRead second, String.append_right_inj]

end ScriptDebugger.ContractHash
