import ScriptDebugger.Bytes

/-! Text of byte strings in UTF-8. The lossy reading puts one replacement character for each
longest run of bytes that begins a character and cannot be completed. -/
namespace ScriptDebugger.Utf8

def encode (text : String) : Bytes := text.toUTF8.toList

def decode? (bytes : Bytes) : Option String := String.fromUTF8? ⟨bytes.toArray⟩

structure Begun where
  bits : Nat
  owed : Nat
  low : UInt8 := 0x80
  high : UInt8 := 0xBF
  deriving DecidableEq, Repr

inductive Opening where
  | whole (c : Char)
  | begun (b : Begun)
  deriving DecidableEq, Repr

def replacement : Char := '\uFFFD'

/-- What a byte opens between characters. The bounds leave out surrogates, forms longer than
needed and numbers past the last character. -/
def opening (b : UInt8) : Opening :=
  let n := b.toNat
  if n < 0x80 then .whole (Char.ofNat n)
  else if 0xC2 ≤ n ∧ n ≤ 0xDF then .begun ⟨n - 0xC0, 1, 0x80, 0xBF⟩
  else if n = 0xE0 then .begun ⟨0, 2, 0xA0, 0xBF⟩
  else if n = 0xED then .begun ⟨0xD, 2, 0x80, 0x9F⟩
  else if 0xE1 ≤ n ∧ n ≤ 0xEF then .begun ⟨n - 0xE0, 2, 0x80, 0xBF⟩
  else if n = 0xF0 then .begun ⟨0, 3, 0x90, 0xBF⟩
  else if n = 0xF4 then .begun ⟨4, 3, 0x80, 0x8F⟩
  else if 0xF1 ≤ n ∧ n ≤ 0xF3 then .begun ⟨n - 0xF0, 3, 0x80, 0xBF⟩
  else .whole replacement

def lossyFrom : Option Begun → Bytes → List Char
  | none, [] => []
  | some _, [] => [replacement]
  | pending, b :: rest =>
    let restart (before : List Char) : List Char :=
      match opening b with
      | .whole c => before ++ c :: lossyFrom none rest
      | .begun p => before ++ lossyFrom (some p) rest
    match pending with
    | none => restart []
    | some p =>
      if p.low ≤ b ∧ b ≤ p.high then
        let bits := p.bits * 64 + (b.toNat - 0x80)
        if p.owed = 1 then Char.ofNat bits :: lossyFrom none rest
        else lossyFrom (some ⟨bits, p.owed - 1, 0x80, 0xBF⟩) rest
      else restart [replacement]

def decodeLossy (bytes : Bytes) : String := String.ofList (lossyFrom none bytes)

end ScriptDebugger.Utf8
