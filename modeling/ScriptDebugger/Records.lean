import ScriptDebugger.Config
import ScriptDebugger.Machine.View
import ScriptDebugger.Session
import ScriptDebugger.StopReason

/-! Records of the debugger in JSON. Each is read in the forms a record may have and written as an
object; a value without parts is written as its name or its number. -/
namespace ScriptDebugger

open Json

namespace ContractHash

def toJson (h : ContractHash) : Json := .text h.text

end ContractHash

namespace SourceLocation

def decoder : Decoder SourceLocation := fun depth d => do
  let fs ← Fields.read ["file", "line"] false depth d
  return ⟨← fs.required "file" Decoder.text, ← fs.required "line" (Decoder.natural 32)⟩

def toJson (l : SourceLocation) : Json := .object [("file", .text l.file), ("line", .nat l.line)]

end SourceLocation

namespace SourceLine

/-- A source line lies flat in its object. So it has no form as a list, and what it does not know
is read as a value before it is passed over. -/
def decoder : Decoder SourceLine := fun depth d => do
  let .object fields := d | none
  let fs ← Fields.read ["file", "line", "text"] false depth d
  discard (Document.fieldsToJson? fs.depth (fields.filter fun (key, _) => key ≠ some "text"))
  let file ← fs.required "file" Decoder.text
  let line ← fs.required "line" (Decoder.natural 32)
  return ⟨⟨file, line⟩, ← fs.withDefault "text" (Decoder.option Decoder.text) none⟩

def toJson (l : SourceLine) : Json :=
  .object [("file", .text l.location.file), ("line", .nat l.location.line),
    ("text", .ofOption .text l.text)]

end SourceLine

namespace StopReason

def decoder : Decoder StopReason := fun depth d => (Decoder.byte depth d).map StopReason.mk

def toJson (a : StopReason) : Json := .nat a.bits.toNat

end StopReason

namespace StepMode

def decoder : Decoder StepMode := Decoder.name ofName?

def toJson (m : StepMode) : Json := .text m.name

end StepMode

namespace VmState

def all : List VmState := [.running, .halted, .faulted, .suspended]

def ofText? (s : String) : Option VmState := all.find? fun v => v.text = s

def decoder : Decoder VmState := Decoder.name ofText?

def toJson (v : VmState) : Json := .text v.text

end VmState

namespace LogEntry

def decoder : Decoder LogEntry := fun depth d => do
  let fs ← Fields.read ["contract", "message"] false depth d
  return ⟨← fs.required "contract" ContractHash.decoder, ← fs.required "message" Decoder.text⟩

def toJson (l : LogEntry) : Json :=
  .object [("contract", l.contract.toJson), ("message", .text l.message)]

end LogEntry

namespace FaultInfo

def decoder : Decoder FaultInfo := fun depth d => do
  let fs ← Fields.read ["message", "stack_trace"] false depth d
  return ⟨← fs.required "message" Decoder.text,
    ← fs.withDefault "stack_trace" (Decoder.option Decoder.text) none⟩

def toJson (f : FaultInfo) : Json :=
  .object [("message", .text f.message), ("stack_trace", .ofOption .text f.stackTrace)]

end FaultInfo

namespace Signer

def toJson (s : Signer) : Json :=
  .object [("account", s.account.toJson), ("scopes", .text s.scopes)]

end Signer

namespace Overrides

def decoder : Decoder Overrides := fun depth d => do
  let fs ← Fields.read ["timestamp"] false depth d
  return ⟨← fs.optional "timestamp" (Decoder.natural 64)⟩

def toJson (o : Overrides) : Json := .object [("timestamp", .ofOption .nat o.timestamp)]

end Overrides

def bytesToJson (bytes : Bytes) : Json := .list (bytes.map fun b => .nat b.toNat)

namespace StorageKey

def decoder : Decoder StorageKey := fun depth d => do
  let fs ← Fields.read ["contract", "key"] false depth d
  return ⟨← fs.required "contract" ContractHash.decoder,
    ← fs.required "key" (Decoder.list Decoder.byte)⟩

def toJson (k : StorageKey) : Json :=
  .object [("contract", k.contract.toJson), ("key", bytesToJson k.key)]

end StorageKey

namespace ContractMethod

def decoder : Decoder ContractMethod := fun depth d => do
  let fs ← Fields.read ["name", "offset", "parameter_count"] false depth d
  return ⟨← fs.required "name" Decoder.text, ← fs.required "offset" (Decoder.natural 32),
    ← fs.required "parameter_count" (Decoder.natural 64)⟩

def toJson (m : ContractMethod) : Json :=
  .object [("name", .text m.name), ("offset", .nat m.offset),
    ("parameter_count", .nat m.parameterCount)]

end ContractMethod

namespace Contract

def decoder : Decoder Contract := fun depth d => do
  let fs ← Fields.read ["id", "hash", "name", "script", "methods"] false depth d
  return {
    id := ← fs.required "id" (Decoder.integer (.signed 32))
    hash := ← fs.required "hash" ContractHash.decoder
    name := ← fs.required "name" Decoder.text
    script := ← fs.required "script" (Decoder.list Decoder.byte)
    methods := ← fs.required "methods" (Decoder.list ContractMethod.decoder) }

def toJson (c : Contract) : Json :=
  .object [("hash", c.hash.toJson), ("id", .int c.id),
    ("methods", .list (c.methods.map ContractMethod.toJson)), ("name", .text c.name),
    ("script", bytesToJson c.script)]

end Contract

namespace Config

def decoder : Decoder Config := fun depth d => do
  let fs ← Fields.read ["max_iterator_result_items", "max_gas", "default_timestamp"] true depth d
  let standard : Config := {}
  return {
    maxIteratorItems := ← fs.withDefault "max_iterator_result_items" (Decoder.natural 64)
      standard.maxIteratorItems
    maxGas := ← fs.withDefault "max_gas" (Decoder.integer (.signed 64)) standard.maxGas
    defaultTimestamp := ← fs.withDefault "default_timestamp"
      (Decoder.option (Decoder.natural 64)) standard.defaultTimestamp }

def toJson (c : Config) : Json :=
  .object [("default_timestamp", .ofOption .nat c.defaultTimestamp), ("max_gas", .int c.maxGas),
    ("max_iterator_result_items", .nat c.maxIteratorItems)]

end Config

end ScriptDebugger
