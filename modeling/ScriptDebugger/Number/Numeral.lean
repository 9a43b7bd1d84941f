/-! Decimal numerals of bounded integers: ASCII digits after an optional sign. A minus sign is a
sign only where the range has negative numbers. -/
namespace ScriptDebugger

structure IntRange where
  low : Int
  high : Int
  deriving DecidableEq, Repr

namespace IntRange

def unsigned (bits : Nat) : IntRange := ⟨0, Nat.pow 2 bits - 1⟩
def signed (bits : Nat) : IntRange := ⟨-Nat.pow 2 (bits - 1), Nat.pow 2 (bits - 1) - 1⟩

def Contains (r : IntRange) (i : Int) : Prop := r.low ≤ i ∧ i ≤ r.high

instance (r : IntRange) (i : Int) : Decidable (r.Contains i) := by unfold Contains; infer_instance

end IntRange

namespace Numeral

inductive ReadError where
  | empty
  | badDigit
  | tooLarge
  | tooSmall
  deriving DecidableEq, Repr

def ReadError.message : ReadError → String
  | .empty => "cannot parse integer from empty string"
  | .badDigit => "invalid digit found in string"
  | .tooLarge => "number too large to fit in target type"
  | .tooSmall => "number too small to fit in target type"

def digitValue? (c : Char) : Option Nat := if c.isDigit then some (c.toNat - 48) else none

/-- Reads digits from the left onto `value`; leaving the range is reported at the digit that
leaves it, before any later character is looked at. -/
def readDigits (r : IntRange) (negative : Bool) : Int → List Char → Except ReadError Int
  | value, [] => return value
  | value, c :: rest => do
    let some d := digitValue? c | throw .badDigit
    let next := if negative then 10 * value - d else 10 * value + d
    if next < r.low then throw .tooSmall
    if r.high < next then throw .tooLarge
    readDigits r negative next rest

def readChars (r : IntRange) : List Char → Except ReadError Int
  | [] => throw .empty
  | ['+'] => throw .badDigit
  | '+' :: digits => readDigits r false 0 digits
  | ['-'] => throw .badDigit
  | '-' :: digits => if r.low < 0 then readDigits r true 0 digits else throw .badDigit
  | digits => readDigits r false 0 digits

def read (r : IntRange) (text : String) : Except ReadError Int := readChars r text.toList

def readNat (bits : Nat) (text : String) : Except ReadError Nat :=
  return (← read (.unsigned bits) text).toNat

end Numeral

end ScriptDebugger
