import ScriptDebugger.Error
import ScriptDebugger.Json.Decoder
import ScriptDebugger.Machine.Engine
import ScriptDebugger.Script.Emission

/-! Arguments and signers of an invocation in JSON. An argument is an object that says its type and
its value, or a bare value whose type is plain. -/
namespace ScriptDebugger

namespace Parameter

def mismatch (type : String) (v : Json) : Result α :=
  throw (.invalidArguments (.mismatch type v.kind))

def readInteger (raw : String) : Result Parameter :=
  match Numeral.read (.signed 128) (Text.trim raw) with
  | .ok i => return .integer i
  | .error cause => throw (.invalidArguments (.integer raw cause))

def ofTyped (type : String) (v : Json) : Result Parameter :=
  match type with
  | "Any" => return .any
  | "Boolean" =>
    match v with
    | .bool b => return .boolean b
    | .text "true" => return .boolean true
    | .text "false" => return .boolean false
    | .text s => throw (.invalidArguments (.boolean s))
    | _ => mismatch type v
  | "Integer" =>
    match v with
    | .number n => readInteger n.text
    | .text s => readInteger s
    | _ => mismatch type v
  | "String" =>
    match v with
    | .text s => return .text s
    | _ => mismatch type v
  | "ByteArray" =>
    match v with
    | .text s =>
      match Base64.decode s with
      | .ok bytes => return .byteArray bytes
      | .error cause => throw (.invalidArguments (.base64 cause))
    | _ => mismatch type v
  | "Hash160" =>
    match v with
    | .text s => do return .hash (← ContractHash.read s)
    | _ => mismatch type v
  | _ => throw (.invalidArguments (.unknownType type))

mutual
def ofJson : Json → Result Parameter
  | .null => return .any
  | .bool b => return .boolean b
  | .number n => readInteger n.text
  | .text s => return .text s
  | .list items => do return .list (← ofItems items)
  | .object fields =>
    match fields.lookup "type" with
    | some (.text "Array") => ofArrayField fields
    | some (.text type) => ofTyped type ((fields.lookup "value").getD .null)
    | _ => throw (.invalidArguments .noEnvelope)
def ofItems : List Json → Result (List Parameter)
  | [] => return []
  | item :: rest => return (← ofJson item) :: (← ofItems rest)
def ofArrayField : List (String × Json) → Result Parameter
  | [] => mismatch "Array" .null
  | (key, v) :: rest =>
    if key = "value" then
      match v with
      | .list items => do return .list (← ofItems items)
      | v => mismatch "Array" v
    else ofArrayField rest
end

def readAll (text : String) : Result (List Parameter) :=
  match Json.parse? text with
  | none => throw (.invalidArguments .malformed)
  | some (.list items) => ofItems items
  | some v => throw (.invalidArguments (.notList v.kind))

end Parameter

namespace ContractHash

def decoder : Json.Decoder ContractHash := fun depth d => do
  (ContractHash.parse (← Json.Decoder.text depth d)).toOption

end ContractHash

namespace Signer

def defaultScopes : String := "CalledByEntry"

def decoder : Json.Decoder Signer := fun depth d => do
  let fs ← Json.Fields.read ["account", "scopes"] false depth d
  return ⟨← fs.required "account" ContractHash.decoder,
    ← fs.withDefault "scopes" Json.Decoder.text defaultScopes⟩

def readAll (text : Option String) : Result (List Signer) :=
  match text.filter fun t => Text.trim t ≠ "" with
  | none => return []
  | some t =>
    match (Json.Decoder.list decoder).read? t with
    | some signers => return signers
    | none => throw (.invalidArguments .signers)

end Signer

end ScriptDebugger
