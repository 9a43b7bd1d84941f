import ScriptDebugger.Json

/-! JSON texts as written. A document keeps what a reader of some part may refuse and a reader that
skips the part may not: the order and repetition of keys, strings with a lone surrogate and
numbers out of range. Grammar alone decides whether a text is a document. -/
namespace ScriptDebugger.Json

structure Lexeme where
  negative : Bool
  whole : List Nat
  fraction : List Nat := []
  pointed : Bool := false
  exponent : Option (Bool × List Nat) := none
  deriving DecidableEq, Repr

def accumulate (limit : Nat) : Nat → List Nat → Nat × Nat
  | value, [] => (value, 0)
  | value, d :: rest =>
    if 10 * value + d ≤ limit then
      let (v, n) := accumulate limit (10 * value + d) rest
      (v, n + 1)
    else (value, 0)

def significandLimit : Nat := Nat.pow 2 64 - 1

def scaleFrom (x : Binary64) (power : Int) : Option Binary64 :=
  if 308 < power then if x.isZero then some x else none
  else if 0 ≤ power then do x.mul? (← Binary64.ofNat? (Nat.pow 10 power.toNat))
  else if -308 ≤ power then do x.div? (← Binary64.ofNat? (Nat.pow 10 (-power).toNat))
  else if x.isZero then some x
  else do
    let y ← x.div? (← Binary64.ofNat? (Nat.pow 10 308))
    scaleFrom y (power + 308)
termination_by power.natAbs

def Lexeme.float? (l : Lexeme) (significand : Nat) (power : Int) : Option Number := do
  let x ← scaleFrom (← Binary64.ofNat? significand) power
  return .float { x with negative := l.negative }

/-- A number without point and exponent that fits 64 bits is whole, negative zero aside. Any other
takes its leading digits that fit 64 bits as significand; nothing when it is out of range. -/
def Lexeme.number? (l : Lexeme) : Option Number :=
  let (head, used) := accumulate significandLimit 0 l.whole
  let dropped := l.whole.length - used
  if !l.pointed && l.exponent.isNone then
    if 0 < dropped then l.float? head dropped
    else if !l.negative then some (.whole head)
    else if head = 0 ∨ Nat.pow 2 63 < head then l.float? head 0
    else some (.whole (-head))
  else
    let (significand, places) := accumulate significandLimit head l.fraction
    let power : Int := (dropped : Int) - (places : Int)
    match l.exponent with
    | none => l.float? significand power
    | some (negative, digits) =>
      let size : Nat := digits.foldl (fun n d => 10 * n + d) 0
      if Nat.pow 2 31 ≤ size then
        if significand ≠ 0 ∧ !negative then none else some (.float { Binary64.zero with negative := l.negative })
      else l.float? significand (if negative then power - (size : Int) else power + (size : Int))

inductive Document where
  | null
  | bool (b : Bool)
  | number (n : Option Number)
  | text (s : Option String)
  | list (items : List Document)
  | object (fields : List (Option String × Document))
  deriving Inhabited

namespace Document

def isSpace (c : Char) : Bool := c = ' ' || c = '\n' || c = '\t' || c = '\r'

def skip (cs : List Char) : List Char := cs.dropWhile isSpace

inductive Piece where
  | char (c : Char)
  | surrogate (n : Nat)
  deriving DecidableEq, Repr

def hexValue? (c : Char) : Option Nat :=
  let n := c.toNat
  if 48 ≤ n ∧ n ≤ 57 then some (n - 48)
  else if 97 ≤ n ∧ n ≤ 102 then some (n - 87)
  else if 65 ≤ n ∧ n ≤ 70 then some (n - 55)
  else none

def unit? (a b c d : Char) : Option Piece := do
  let n := (← hexValue? a) * 4096 + (← hexValue? b) * 256 + (← hexValue? c) * 16 + (← hexValue? d)
  return if 0xD800 ≤ n ∧ n < 0xE000 then .surrogate n else .char (Char.ofNat n)

def shortEscape? : Char → Option Char
  | '"' => some '"'
  | '\\' => some '\\'
  | '/' => some '/'
  | 'b' => some '\x08'
  | 'f' => some '\x0c'
  | 'n' => some '\n'
  | 'r' => some '\r'
  | 't' => some '\t'
  | _ => none

def stringPieces : List Piece → List Char → Option (List Piece × List Char)
  | acc, '"' :: rest => some (acc, rest)
  | acc, '\\' :: 'u' :: a :: b :: c :: d :: rest => do stringPieces ((← unit? a b c d) :: acc) rest
  | acc, '\\' :: c :: rest => do stringPieces (.char (← shortEscape? c) :: acc) rest
  | acc, c :: rest => if c.toNat < 32 then none else stringPieces (.char c :: acc) rest
  | _, [] => none

def join? : List Piece → Option (List Char)
  | [] => some []
  | .char c :: rest => do return c :: (← join? rest)
  | .surrogate h :: .surrogate l :: rest =>
    if h < 0xDC00 ∧ 0xDC00 ≤ l then do
      return Char.ofNat (0x10000 + (h - 0xD800) * 1024 + (l - 0xDC00)) :: (← join? rest)
    else none
  | .surrogate _ :: _ => none

def string? (cs : List Char) : Option (Option String × List Char) := do
  let (pieces, rest) ← stringPieces [] cs
  return ((join? pieces.reverse).map String.ofList, rest)

def digits (cs : List Char) : List Nat × List Char :=
  ((cs.takeWhile Char.isDigit).map fun c => c.toNat - 48, cs.dropWhile Char.isDigit)

def lexeme? (cs : List Char) : Option (Lexeme × List Char) := do
  let (negative, cs) := match cs with
    | '-' :: rest => (true, rest)
    | _ => (false, cs)
  let (whole, cs) := digits cs
  if whole.isEmpty ∨ (whole.head? = some 0 ∧ 1 < whole.length) then none
  let (fraction, pointed, cs) ← match cs with
    | '.' :: rest =>
      let (ds, rest) := digits rest
      if ds.isEmpty then none else some (ds, true, rest)
    | _ => some ([], false, cs)
  let marked : Option (List Char) := match cs with
    | 'e' :: rest => some rest
    | 'E' :: rest => some rest
    | _ => none
  match marked with
  | none => return (⟨negative, whole, fraction, pointed, none⟩, cs)
  | some rest =>
    let (down, rest) := match rest with
      | '+' :: rest => (false, rest)
      | '-' :: rest => (true, rest)
      | _ => (false, rest)
    let (ds, rest) := digits rest
    if ds.isEmpty then none
    return (⟨negative, whole, fraction, pointed, some (down, ds)⟩, rest)

mutual
def value? : Nat → List Char → Option (Document × List Char)
  | 0, _ => none
  | fuel + 1, cs =>
    match skip cs with
    | 'n' :: 'u' :: 'l' :: 'l' :: rest => some (.null, rest)
    | 't' :: 'r' :: 'u' :: 'e' :: rest => some (.bool true, rest)
    | 'f' :: 'a' :: 'l' :: 's' :: 'e' :: rest => some (.bool false, rest)
    | '"' :: rest => (string? rest).map fun (s, rest) => (.text s, rest)
    | '[' :: rest =>
      match skip rest with
      | ']' :: rest => some (.list [], rest)
      | rest => (items? fuel rest).map fun (items, rest) => (.list items, rest)
    | '\x7b' :: rest =>
      match skip rest with
      | '\x7d' :: rest => some (.object [], rest)
      | rest => (fields? fuel rest).map fun (fields, rest) => (.object fields, rest)
    | rest => (lexeme? rest).map fun (l, rest) => (.number l.number?, rest)
def items? : Nat → List Char → Option (List Document × List Char)
  | 0, _ => none
  | fuel + 1, cs => do
    let (item, rest) ← value? fuel cs
    match skip rest with
    | ',' :: rest =>
      let (items, rest) ← items? fuel rest
      return (item :: items, rest)
    | ']' :: rest => return ([item], rest)
    | _ => none
def fields? : Nat → List Char → Option (List (Option String × Document) × List Char)
  | 0, _ => none
  | fuel + 1, cs => do
    let '"' :: rest := skip cs | none
    let (key, rest) ← string? rest
    let ':' :: rest := skip rest | none
    let (v, rest) ← value? fuel rest
    match skip rest with
    | ',' :: rest =>
      let (fields, rest) ← fields? fuel rest
      return ((key, v) :: fields, rest)
    | '\x7d' :: rest => return ([(key, v)], rest)
    | _ => none
end

/-- The document that makes up the whole text. Each step of the reader takes a character within
two calls, which bounds its fuel. -/
def parse? (text : String) : Option Document :=
  let cs := text.toList
  match value? (2 * cs.length + 2) cs with
  | some (d, rest) => if (skip rest).isEmpty then some d else none
  | none => none

def depthLimit : Nat := 127

mutual
def toJson? (depth : Nat) : Document → Option Json
  | .null => some .null
  | .bool b => some (.bool b)
  | .number n => n.map .number
  | .text s => s.map .text
  | .list items => if depth = 0 then none else (itemsToJson? (depth - 1) items).map .list
  | .object fields => if depth = 0 then none else (fieldsToJson? (depth - 1) fields).map ofFields
def itemsToJson? (depth : Nat) : List Document → Option (List Json)
  | [] => some []
  | item :: rest => do return (← toJson? depth item) :: (← itemsToJson? depth rest)
def fieldsToJson? (depth : Nat) : List (Option String × Document) → Option (List (String × Json))
  | [] => some []
  | (key, v) :: rest => do return (← key, ← toJson? depth v) :: (← fieldsToJson? depth rest)
end

end Document

def parse? (text : String) : Option Json := do (← Document.parse? text).toJson? Document.depthLimit

end ScriptDebugger.Json
