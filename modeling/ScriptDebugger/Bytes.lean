/-! Byte strings and the integers they spell, least significant byte first.
A signed reading is two's complement over exactly the bytes given; one of 128 bits first fills them up
by their sign. -/
namespace ScriptDebugger

abbrev Bytes := List UInt8

namespace Bytes

def toNat : Bytes → Nat
  | [] => 0
  | b :: rest => b.toNat + 256 * toNat rest

def ofNat : Nat → Nat → Bytes
  | 0, _ => []
  | width + 1, n => UInt8.ofNat (n % 256) :: ofNat width (n / 256)

def count (width : Nat) : Nat := Nat.pow 256 width

theorem countSucc (width : Nat) : count (width + 1) = 256 * count width :=
  Nat.mul_comm (Nat.pow 256 width) 256

def toInt (bytes : Bytes) : Int :=
  if 2 * toNat bytes < count bytes.length then toNat bytes
  else (toNat bytes : Int) - count bytes.length

def ofInt (width : Nat) (i : Int) : Bytes := ofNat width (i % count width).toNat

def Holds (width : Nat) (i : Int) : Prop := -(count width : Int) ≤ 2 * i ∧ 2 * i < count width

instance (width : Nat) (i : Int) : Decidable (Holds width i) := by unfold Holds; infer_instance

/-- What stands in every byte above the ones of a number. -/
def signByte (negative : Bool) : UInt8 := if negative then 0xff else 0x00

def topSign (b : UInt8) : UInt8 := b &&& 0x80

def isNegative (bytes : Bytes) : Bool := bytes.getLast?.any (topSign · != 0)

/-- Sixteen bytes that spell the same number. -/
def extended (bytes : Bytes) : Bytes :=
  bytes.take 16 ++ List.replicate (16 - bytes.length) (signByte (isNegative bytes))

def toInt128 (bytes : Bytes) : Int := toInt (extended bytes)

/-- Goes down from a width while the topmost byte only repeats the sign of the one below it. -/
def trimmed (bytes : Bytes) (fill : UInt8) : Nat → Nat
  | width + 2 =>
    if bytes.getD (width + 1) 0 = fill ∧ topSign (bytes.getD width 0) = topSign fill then
      trimmed bytes fill (width + 1)
    else width + 2
  | width => width

def minimalWidth (i : Int) : Nat := trimmed (ofInt 16 i) (signByte (i < 0)) 16

/-- No byte at all spells zero. -/
def ofIntShortest (i : Int) : Bytes := if i = 0 then [] else (ofInt 16 i).take (minimalWidth i)

theorem lengthOfNat (width n : Nat) : (ofNat width n).length = width := by
  induction width generalizing n with
  | zero => rfl
  | succ width ih => simp [ofNat, ih]

theorem lengthOfInt (width : Nat) (i : Int) : (ofInt width i).length = width :=
  lengthOfNat _ _

theorem toNatOfNat (width n : Nat) : toNat (ofNat width n) = n % count width := by
  induction width generalizing n with
  | zero => exact (Nat.mod_one n).symm
  | succ width ih =>
    have head : (UInt8.ofNat (n % 256)).toNat = n % 256 := by simp
    rw [ofNat, toNat, ih, head, countSucc, Nat.mod_mul]

end Bytes

def InInt128 (i : Int) : Prop := Bytes.Holds 16 i

instance (i : Int) : Decidable (InInt128 i) := by unfold InInt128; infer_instance

end ScriptDebugger
