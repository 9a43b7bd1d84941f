import ScriptDebugger.Bytes

/-! Base64 with the standard alphabet and required canonical padding. Reading works on the UTF-8
bytes of the text; the first fault from the left wins, save that a length of one more than a
multiple of four is looked at before anything else. -/
namespace ScriptDebugger.Base64

def symbol (n : Nat) : Char :=
  Char.ofNat (if n < 26 then 65 + n else if n < 52 then 71 + n else if n < 62 then n - 4
    else if n = 62 then 43 else 47)

def symbolValue? (b : UInt8) : Option Nat :=
  let n := b.toNat
  if 65 ≤ n ∧ n ≤ 90 then some (n - 65)
  else if 97 ≤ n ∧ n ≤ 122 then some (n - 71)
  else if 48 ≤ n ∧ n ≤ 57 then some (n + 4)
  else if n = 43 then some 62
  else if n = 47 then some 63
  else none

def encodeChars : Bytes → List Char
  | a :: b :: c :: rest =>
    let n := a.toNat * 65536 + b.toNat * 256 + c.toNat
    symbol (n / 262144) :: symbol (n / 4096 % 64) :: symbol (n / 64 % 64) :: symbol (n % 64)
      :: encodeChars rest
  | [a, b] =>
    let n := a.toNat * 1024 + b.toNat * 4
    [symbol (n / 4096), symbol (n / 64 % 64), symbol (n % 64), '=']
  | [a] =>
    let n := a.toNat * 16
    [symbol (n / 64), symbol (n % 64), '=', '=']
  | [] => []

def encode (bytes : Bytes) : String := String.ofList (encodeChars bytes)

inductive ReadError where
  | badByte (byte : UInt8) (position : Nat)
  | sixBitRemainder
  | badLastSymbol (byte : UInt8) (position : Nat)
  | badPadding
  deriving DecidableEq, Repr

def ReadError.message : ReadError → String
  | .badByte byte position => s!"Invalid byte {byte.toNat}, offset {position}."
  | .sixBitRemainder => "Encoded text cannot have a 6-bit remainder."
  | .badLastSymbol byte position => s!"Invalid last symbol {byte.toNat}, offset {position}."
  | .badPadding => "Invalid padding"

def padding : UInt8 := 61

structure Scan where
  symbols : List (UInt8 × Nat) := []
  padded : Option Nat := none
  paddings : Nat := 0

/-- Reads one byte at `position`. Padding may stand only in the second half of a group of four
and nothing may follow it; a text that breaks this is faulted at its first padding byte. -/
def Scan.step (scan : Scan) (position : Nat) (b : UInt8) : Except ReadError Scan :=
  if b = padding then
    if position % 4 < 2 then throw (.badByte b (scan.padded.getD position))
    else return { scan with padded := some (scan.padded.getD position), paddings := scan.paddings + 1 }
  else match scan.padded, symbolValue? b with
    | some first, _ => throw (.badByte padding first)
    | none, some v => return { scan with symbols := (b, v) :: scan.symbols }
    | none, none => throw (.badByte b position)

def Scan.run (scan : Scan) : Nat → Bytes → Except ReadError Scan
  | _, [] => return scan
  | position, b :: rest => do (← scan.step position b).run (position + 1) rest

def pack : List Nat → Bytes
  | a :: b :: c :: d :: rest =>
    let n := a * 262144 + b * 4096 + c * 64 + d
    UInt8.ofNat (n / 65536) :: UInt8.ofNat (n / 256 % 256) :: UInt8.ofNat (n % 256) :: pack rest
  | [a, b, c] =>
    let n := a * 4096 + b * 64 + c
    [UInt8.ofNat (n / 1024), UInt8.ofNat (n / 4 % 256)]
  | [a, b] => [UInt8.ofNat ((a * 64 + b) / 16)]
  | _ => []

def spareBits (count last : Nat) : Nat :=
  if count % 4 = 2 then last % 16 else if count % 4 = 3 then last % 4 else 0

def decode (text : String) : Except ReadError Bytes := do
  let bytes := text.toUTF8.toList
  if bytes.length % 4 = 1 then
    match bytes.getLast? with
    | some b =>
      if b ≠ padding ∧ symbolValue? b = none then throw (.badByte b (bytes.length - 1))
      else throw .sixBitRemainder
    | none => throw .sixBitRemainder
  let scan ← ({} : Scan).run 0 bytes
  let count := scan.symbols.length
  if (count + scan.paddings) % 4 ≠ 0 then throw .badPadding
  if let (b, v) :: _ := scan.symbols then
    if spareBits count v ≠ 0 then throw (.badLastSymbol b (count - 1))
  return pack (scan.symbols.reverse.map Prod.snd)

end ScriptDebugger.Base64
