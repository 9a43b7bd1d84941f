import ScriptDebugger.Bytes

/-! Hexadecimal text of byte strings: two lower-case digits a byte. Reading takes either case and
looks at the UTF-8 bytes of the text, so a position in an error counts bytes. -/
namespace ScriptDebugger.Hex

def digit (n : Nat) : Char := Char.ofNat (if n < 10 then 48 + n else 87 + n)

def ofByte (b : UInt8) : List Char := [digit (b.toNat / 16), digit (b.toNat % 16)]

def encode (bytes : Bytes) : String := String.ofList (bytes.flatMap ofByte)

def digitValue? (b : UInt8) : Option Nat :=
  if 48 ≤ b ∧ b ≤ 57 then some (b.toNat - 48)
  else if 97 ≤ b ∧ b ≤ 102 then some (b.toNat - 87)
  else if 65 ≤ b ∧ b ≤ 70 then some (b.toNat - 55)
  else none

inductive ReadError where
  | oddLength
  | badDigit (byte : UInt8) (position : Nat)
  deriving DecidableEq, Repr

def quoted (b : UInt8) : String :=
  let n := b.toNat
  let body : List Char :=
    if n = 0 then ['\\', '0'] else if n = 9 then ['\\', 't'] else if n = 10 then ['\\', 'n']
    else if n = 13 then ['\\', 'r'] else if n = 39 ∨ n = 92 then ['\\', Char.ofNat n]
    else if n < 32 ∨ (127 ≤ n ∧ n ≤ 160) ∨ n = 173 then
      ['\\', 'u', '\x7b'] ++ Nat.toDigits 16 n ++ ['\x7d']
    else [Char.ofNat n]
  String.ofList ('\'' :: body ++ ['\''])

def ReadError.message : ReadError → String
  | .oddLength => "Odd number of digits"
  | .badDigit byte position => s!"Invalid character {quoted byte} at position {position}"

def decodePairs : Nat → Bytes → Except ReadError Bytes
  | position, high :: low :: rest => do
    let some h := digitValue? high | throw (.badDigit high position)
    let some l := digitValue? low | throw (.badDigit low (position + 1))
    return UInt8.ofNat (16 * h + l) :: (← decodePairs (position + 2) rest)
  | _, _ => return []

def decode (text : String) : Except ReadError Bytes :=
  let digits := text.toUTF8.toList
  if digits.length % 2 = 1 then throw .oddLength else decodePairs 0 digits

end ScriptDebugger.Hex
