import ScriptDebugger.Error
import ScriptDebugger.Json.Decoder

/-! The metadata of a contract: its methods with the range of their instructions, and the names
and types of parameters, local variables and static fields. -/
namespace ScriptDebugger

structure VariableDescriptor where
  name : String
  type : String
  slot : Nat
  deriving DecidableEq, Repr

structure MethodInfo where
  id : String
  name : String
  first : Nat
  last : Nat
  parameters : List VariableDescriptor
  locals : List VariableDescriptor
  returnType : Option String
  deriving DecidableEq, Repr

def MethodInfo.Contains (m : MethodInfo) (offset : Nat) : Prop := m.first ≤ offset ∧ offset ≤ m.last

instance (m : MethodInfo) (offset : Nat) : Decidable (m.Contains offset) := by
  unfold MethodInfo.Contains; infer_instance

structure DebugInfo where
  documents : List String
  methods : List MethodInfo
  statics : List VariableDescriptor
  deriving DecidableEq, Repr

namespace VariableDescriptor

def parse (raw : String) (position : Nat) : Result VariableDescriptor :=
  match (raw.toList.splitOn ',').map fun part => String.ofList (Text.trimChars part) with
  | [] => throw (.invalidDebugInfo (.emptyDescriptor raw))
  | name :: rest =>
    if name = "" then throw (.invalidDebugInfo (.emptyDescriptor raw))
    else match rest[1]? with
      | none => return ⟨name, rest.headD "Any", position⟩
      | some slot =>
        match Numeral.readNat 64 slot with
        | .ok n => return ⟨name, rest.headD "Any", n⟩
        | .error cause => throw (.invalidDebugInfo (.slot raw cause))

def parseAll (raws : List String) : Result (List VariableDescriptor) :=
  raws.zipIdx.mapM fun (raw, position) => parse raw position

end VariableDescriptor

def MethodInfo.parseRange? (raw : String) : Option (Nat × Nat) := do
  let cs := raw.toList
  let '-' :: after := cs.dropWhile (· ≠ '-') | none
  let bound (cs : List Char) : Option Nat :=
    (Numeral.readNat 32 (String.ofList (Text.trimChars cs))).toOption
  let first ← bound (cs.takeWhile (· ≠ '-'))
  let last ← bound after
  if last < first then none else some (first, last)

structure RawMethod where
  id : String
  name : String
  range : String
  parameters : List String
  locals : List String
  returnType : Option String

namespace RawMethod

open Json

def decoder : Decoder RawMethod := fun depth d => do
  let fs ← Fields.read ["id", "name", "range", "params", "variables", "return"] false depth d
  return {
    id := ← fs.withDefault "id" Decoder.text ""
    name := ← fs.required "name" Decoder.text
    range := ← fs.required "range" Decoder.text
    parameters := ← fs.withDefault "params" (Decoder.list Decoder.text) []
    locals := ← fs.withDefault "variables" (Decoder.list Decoder.text) []
    returnType := ← fs.withDefault "return" (Decoder.option Decoder.text) none }

def check (m : RawMethod) : Result MethodInfo := do
  let some (first, last) := MethodInfo.parseRange? m.range
    | throw (.invalidDebugInfo (.range m.range))
  let parameters ← VariableDescriptor.parseAll m.parameters
  let locals ← VariableDescriptor.parseAll m.locals
  return ⟨m.id, m.name, first, last, parameters, locals, m.returnType⟩

end RawMethod

namespace DebugInfo

open Json

def rawDecoder : Decoder (List String × List RawMethod × List String) := fun depth d => do
  let fs ← Fields.read ["documents", "methods", "static-variables"] false depth d
  return (
    ← fs.withDefault "documents" (Decoder.list Decoder.text) [],
    ← fs.withDefault "methods" (Decoder.list RawMethod.decoder) [],
    ← fs.withDefault "static-variables" (Decoder.list Decoder.text) [])

def parse (text : String) : Result DebugInfo := do
  let some (documents, methods, statics) := rawDecoder.read? text
    | throw (.invalidDebugInfo .malformed)
  let methods ← methods.mapM RawMethod.check
  return ⟨documents, methods, ← VariableDescriptor.parseAll statics⟩

def methodAt? (info : DebugInfo) (offset : Nat) : Option MethodInfo :=
  info.methods.find? fun m => m.Contains offset

end DebugInfo

end ScriptDebugger
