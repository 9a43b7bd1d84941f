import ScriptDebugger.Bytes.Hex

/-! The 160-bit hash that names a contract. It is kept and ordered by its bytes as the machine has
them, least significant first, and written most significant first after `0x`. -/
namespace ScriptDebugger

structure ContractHash where
  bytes : Bytes
  length_eq : bytes.length = 20
  deriving DecidableEq, Repr

namespace ContractHash

instance : Inhabited ContractHash := ⟨List.replicate 20 0, rfl⟩

def zero : ContractHash := default

instance : Ord ContractHash := ⟨compareOn bytes⟩

instance : Std.TransOrd ContractHash := inferInstanceAs (Std.TransCmp (compareOn bytes))

instance : Std.LawfulEqOrd ContractHash where
  eq_of_compare {a b} h := by
    have same : a.bytes = b.bytes := Std.LawfulEqOrd.eq_of_compare h
    cases a; cases b; cases same; rfl

def ofBytes? (bytes : Bytes) : Option ContractHash :=
  if h : bytes.length = 20 then some ⟨bytes, h⟩ else none

def text (hash : ContractHash) : String := "0x" ++ Hex.encode hash.bytes.reverse

inductive ReadError where
  | digits (cause : Hex.ReadError)
  | length (size : Nat)
  deriving DecidableEq, Repr

def ReadError.message : ReadError → String
  | .digits cause => cause.message
  | .length size => s!"expected 20 bytes, got {size}"

def digitsOf (text : String) : String :=
  match text.toList with
  | '0' :: 'x' :: rest => String.ofList rest
  | '0' :: 'X' :: rest => String.ofList rest
  | _ => text

def parse (text : String) : Except ReadError ContractHash := do
  let bytes ← (Hex.decode (digitsOf text)).mapError .digits
  match ofBytes? bytes.reverse with
  | some hash => return hash
  | none => throw (.length bytes.length)

theorem bytesReadBack (hash : ContractHash) : ofBytes? hash.bytes = some hash := by
  simp [ofBytes?, hash.length_eq]

end ContractHash

end ScriptDebugger
