import ScriptDebugger.Json.Document
import ScriptDebugger.Number.Numeral

/-! Typed readings of JSON documents. A record may be written as an object, or as a list of its
fields in order. An object may name a field once; keys it does not have are passed over, or refused
where the record is strict. What is passed over is held to the grammar alone. -/
namespace ScriptDebugger.Json

abbrev Decoder (α : Type) := Nat → Document → Option α

namespace Decoder

def read? (decoder : Decoder α) (text : String) : Option α := do
  decoder Document.depthLimit (← Document.parse? text)

def text : Decoder String := fun _ d =>
  match d with
  | .text s => s
  | _ => none

def integer (range : IntRange) : Decoder Int := fun _ d =>
  match d with
  | .number (some (.whole i)) => if range.Contains i then some i else none
  | _ => none

def natural (bits : Nat) : Decoder Nat := fun depth d =>
  (integer (.unsigned bits) depth d).map Int.toNat

def option (decoder : Decoder α) : Decoder (Option α) := fun depth d =>
  match d with
  | .null => some none
  | d => (decoder depth d).map some

def list (decoder : Decoder α) : Decoder (List α) := fun depth d =>
  match d with
  | .list items => if depth = 0 then none else items.mapM (decoder (depth - 1))
  | _ => none

def byte : Decoder UInt8 := fun depth d => (natural 8 depth d).map UInt8.ofNat

def name (named : String → Option α) : Decoder α := fun depth d =>
  match d with
  | .text s => s.bind named
  | .object [(key, .null)] => if depth = 0 then none else key.bind named
  | _ => none

def value : Decoder Json := fun depth d => d.toJson? depth

end Decoder

structure Fields where
  given : List (String × Document)
  positional : Bool
  depth : Nat

namespace Fields

def ofObject? (names : List String) (strict : Bool) :
    List (Option String × Document) → Option (List (String × Document))
  | [] => some []
  | (key, d) :: rest => do
    let key ← key
    let given ← ofObject? names strict rest
    if names.contains key then
      if (given.lookup key).isSome then none else some ((key, d) :: given)
    else if strict then none else some given

def read (names : List String) (strict : Bool) : Decoder Fields := fun depth d =>
  if depth = 0 then none
  else match d with
    | .object fields => do return ⟨← ofObject? names strict fields, false, depth - 1⟩
    | .list items =>
      if names.length < items.length then none else some ⟨names.zip items, true, depth - 1⟩
    | _ => none

def required (fs : Fields) (name : String) (decoder : Decoder α) : Option α := do
  decoder fs.depth (← fs.given.lookup name)

def withDefault (fs : Fields) (name : String) (decoder : Decoder α) (absent : α) : Option α :=
  match fs.given.lookup name with
  | none => some absent
  | some d => decoder fs.depth d

def optional (fs : Fields) (name : String) (decoder : Decoder α) : Option (Option α) :=
  match fs.given.lookup name with
  | none => if fs.positional then none else some none
  | some d => Decoder.option decoder fs.depth d

end Fields

end ScriptDebugger.Json
