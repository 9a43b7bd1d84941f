import ScriptDebugger.Inspection
import ScriptDebugger.StopReason

/-! What a command shows of the engine it leaves. A fault is no failure of the command: the report
has its message and a traceback of the frames and the logs. -/
namespace ScriptDebugger

structure ReportLog where
  contract : ContractHash
  contractName : Option String
  message : String
  deriving DecidableEq, Repr

def dumpStack (items : List StackItem) (max : Nat) : Except String (List Json) :=
  StackItem.itemsToJson max items

structure DebugReport where
  state : VmState
  reason : StopReason
  contract : Option ContractHash
  contractName : Option String
  position : Option Nat
  source : Option SourceLine
  gas : Int
  exception : Option String
  traceback : Option String
  stack : Except String (List Json)
  logs : List ReportLog

namespace DebugReport

def frameText (nameOf : ContractHash → Option String) (f : FrameInfo) : String :=
  let name := (nameOf f.contract).elim "" fun name => s!" ({name})"
  let opcode := f.opcode.elim "<end of script>" Opcode.mnemonic
  let source := f.source.elim "" fun line =>
    let shown := Text.trim (line.text.getD "")
    s!" {line.location.text} \"{shown}\""
  s!"  at {f.contract.text}{name} ip={f.position} {opcode} [script length {f.scriptLength}]{source}"

def logText (log : ReportLog) : String :=
  let name := log.contractName.getD "unknown"
  s!"  [{log.contract.text} ({name})] {log.message}"

def headed (heading : String) (lines : List String) : List String :=
  if lines.isEmpty then [] else heading :: lines

def tracebackText (nameOf : ContractHash → Option String) (fault : FaultInfo)
    (frames : List FrameInfo) (logs : List ReportLog) : String :=
  let lines := fault.message :: fault.stackTrace.toList ++
    headed "CallStack:" (frames.map (frameText nameOf)) ++ headed "Logs:" (logs.map logText)
  String.ofList (Text.trimRight ("\n".intercalate lines).toList)

def capture (v : EngineView) (r : Registry) (names : Snapshot) (reason : StopReason) (max : Nat) :
    DebugReport :=
  let nameOf (hash : ContractHash) : Option String := (names.contract? hash).map Contract.name
  let top := v.frames.head?
  let items := if v.state = .halted then v.results else top.elim [] fun f => f.evaluation.reverse
  let logs := v.logs.map fun log => ⟨log.contract, nameOf log.contract, log.message⟩
  { state := v.state
    reason
    contract := top.map FrameView.contract
    contractName := top.bind fun f => nameOf f.contract
    position := top.map FrameView.position
    source := top.bind fun f => EngineView.sourceAt? r f.contract f.position
    gas := v.gas
    exception := v.fault.map FaultInfo.message
    traceback := v.fault.map fun fault => tracebackText nameOf fault (v.invocationStack r) logs
    stack := dumpStack items max
    logs }

def ReportLog.toJson (log : ReportLog) : Json :=
  .object [("contract", .text log.contract.text),
    ("contractName", .ofOption .text log.contractName), ("message", .text log.message)]

def stackToJson : Except String (List Json) → Json
  | .ok items => .list items
  | .error message => .object [("error", .text message)]

def toJson (d : DebugReport) : Json :=
  .ofFields
    [("state", .text d.state.text), ("breakReason", .nat d.reason.bits.toNat),
     ("scriptHash", .ofOption (fun h => .text h.text) d.contract),
     ("contractName", .ofOption .text d.contractName),
     ("instructionPointer", .ofOption .nat d.position),
     ("sourceFilename", .ofOption (fun l => .text l.location.file) d.source),
     ("sourceLineNum", .ofOption (fun l => .nat l.location.line) d.source),
     ("sourceContent", .ofOption .text (d.source.bind SourceLine.text)),
     ("gasConsumed", .int d.gas), ("exception", .ofOption .text d.exception),
     ("traceback", .ofOption .text d.traceback), ("stack", stackToJson d.stack),
     ("logs", .list (d.logs.map ReportLog.toJson))]

end DebugReport

end ScriptDebugger
