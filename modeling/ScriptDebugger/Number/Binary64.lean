/-! Finite binary floating-point numbers of 53 significant bits, computed in exact integers: every
operation rounds the exact result to the nearest number, a half to the even neighbour. -/
namespace ScriptDebugger

/-- `mantissa * 2 ^ exponent` with a sign. The mantissa is below `2 ^ 53`, and below `2 ^ 52` only
at the least exponent. -/
structure Binary64 where
  negative : Bool
  mantissa : Nat
  exponent : Int
  deriving DecidableEq, Repr

namespace Binary64

def limit : Nat := Nat.pow 2 53

def leastExponent : Int := -1074
def greatestExponent : Int := 971

def zero : Binary64 := ⟨false, 0, leastExponent⟩

def isZero (x : Binary64) : Bool := x.mantissa = 0

def scaled (n d : Nat) (shift : Int) : Nat × Nat :=
  if 0 ≤ shift then (n * Nat.pow 2 shift.toNat, d) else (n, d * Nat.pow 2 (-shift).toNat)

def nearest (n d : Nat) : Nat :=
  let q := n / d
  let twice := 2 * (n % d)
  if d < twice ∨ (twice = d ∧ q % 2 = 1) then q + 1 else q

def ofRatio? (negative : Bool) (n d : Nat) : Option Binary64 :=
  if n = 0 then some { zero with negative } else
  let guess : Int := (n.log2 : Int) - d.log2 - 53
  let (gn, gd) := scaled n d (-guess)
  let exponent := max leastExponent (if gn / gd < limit then guess else guess + 1)
  let (sn, sd) := scaled n d (-exponent)
  let m := nearest sn sd
  let x : Binary64 := if m = limit then ⟨negative, limit / 2, exponent + 1⟩ else ⟨negative, m, exponent⟩
  if greatestExponent < x.exponent then none else some x

def ratio (x : Binary64) : Nat × Nat := scaled x.mantissa 1 x.exponent

def mul? (x y : Binary64) : Option Binary64 :=
  ofRatio? (x.negative != y.negative) (x.ratio.1 * y.ratio.1) (x.ratio.2 * y.ratio.2)

def div? (x y : Binary64) : Option Binary64 :=
  ofRatio? (x.negative != y.negative) (x.ratio.1 * y.ratio.2) (x.ratio.2 * y.ratio.1)

def ofNat? (n : Nat) : Option Binary64 := ofRatio? false n 1

structure Decimal where
  digits : Nat
  power : Int
  deriving DecidableEq, Repr

/-- The reals that round to a magnitude, four times over and in units of `2 ^ exponent`, and
whether the two ends belong to them. -/
structure Interval where
  low : Nat
  high : Nat
  closed : Bool

def interval (x : Binary64) : Interval :=
  let m := x.mantissa
  let narrow := m = limit / 2 ∧ leastExponent < x.exponent
  ⟨if narrow then 4 * m - 1 else 4 * m - 2, 4 * m + 2, m % 2 = 0⟩

def onGrid? (x : Binary64) (power : Int) : Option Decimal :=
  -- in units of `2 ^ exponent / 4`, the magnitude is `4 * m` and a grid step is `stepN / stepD`
  let (tenN, tenD) := if 0 ≤ power then (Nat.pow 10 power.toNat, 1) else (1, Nat.pow 10 (-power).toNat)
  let (stepN, stepD) := scaled (4 * tenN) tenD (-x.exponent)
  let i := x.interval
  let value := 4 * x.mantissa
  let inside (k : Nat) : Bool :=
    let p := k * stepN
    (i.low * stepD < p || (i.closed && i.low * stepD == p)) &&
      (p < i.high * stepD || (i.closed && i.high * stepD == p))
  let k := nearest (value * stepD) stepN
  let other := if k * stepN < value * stepD then k + 1 else k - 1
  if inside k then some ⟨k, power⟩ else if inside other then some ⟨other, power⟩ else none

def shortest (x : Binary64) : Decimal :=
  if x.isZero then ⟨0, 0⟩
  else ((List.range 640).findSome? fun k : Nat => x.onGrid? (309 - (k : Int))).getD ⟨0, 0⟩

/-- Positional notation for magnitudes from `10 ^ -5` to below `10 ^ 16`, always with a point;
otherwise one digit before the point and a signed exponent. -/
def text (x : Binary64) : String :=
  let sign := if x.negative then "-" else ""
  if x.isZero then sign ++ "0.0" else
  let d := x.shortest
  let digits := Nat.toDigits 10 d.digits
  let count : Int := digits.length
  let lead := d.power + count - 1
  let body : List Char :=
    if lead < -5 ∨ 15 < lead then
      let fraction := if digits.length = 1 then [] else '.' :: digits.drop 1
      digits.take 1 ++ fraction ++ ['e', if lead < 0 then '-' else '+'] ++ Nat.toDigits 10 lead.natAbs
    else if lead < 0 then
      ['0', '.'] ++ List.replicate (-lead - 1).toNat '0' ++ digits
    else if 0 ≤ d.power then
      digits ++ List.replicate d.power.toNat '0' ++ ['.', '0']
    else
      digits.take (lead + 1).toNat ++ '.' :: digits.drop (lead + 1).toNat
  sign ++ String.ofList body

end Binary64

end ScriptDebugger
