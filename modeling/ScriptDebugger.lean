import ScriptDebugger.Bytes.Hex
import ScriptDebugger.Bytes.Base64
import ScriptDebugger.Bytes.Sha256
import ScriptDebugger.Text.Blank
import ScriptDebugger.Text.DecimalDigit
import ScriptDebugger.Text.Utf8
import ScriptDebugger.Number.Numeral
import ScriptDebugger.Number.Binary64
import ScriptDebugger.Json.Printer
import ScriptDebugger.Json.Document
import ScriptDebugger.Contract.Hash
import ScriptDebugger.Source.Location
import ScriptDebugger.Script.Opcode
import ScriptDebugger.Script.Interop
import ScriptDebugger.Script.Emission
import ScriptDebugger.Stack.Item
import ScriptDebugger.Ledger
import ScriptDebugger.Machine.Engine
import ScriptDebugger.Machine.View
import ScriptDebugger.Error
import ScriptDebugger.Source.DumpLine
import ScriptDebugger.Source.SourceMap
import ScriptDebugger.Source.DebugInfo
import ScriptDebugger.Stepping
import ScriptDebugger.Report
import ScriptDebugger.Request
import ScriptDebugger.Records
import ScriptDebugger.Config.Settings
import ScriptDebugger.Files.Artifacts
import ScriptDebugger.CommandLine.Output
import ScriptDebugger.Main
import ScriptDebugger.Proofs.Debugger.SameCourse
import ScriptDebugger.Proofs.Debugger.WriteBack
import ScriptDebugger.Proofs.Debugger.FlatSessions
import ScriptDebugger.Proofs.Stepping.StepOver
import ScriptDebugger.Proofs.Debugger.Apart
import ScriptDebugger.Proofs.Invocation.Entry
import ScriptDebugger.Proofs.Debugger.Reports
import ScriptDebugger.Proofs.Stepping.Passing
import ScriptDebugger.Proofs.Registry.Consistency
import ScriptDebugger.Proofs.Stepping.Stops
import ScriptDebugger.Proofs.Debugger.Covered
import ScriptDebugger.Proofs.Source.LineStarts
import ScriptDebugger.Proofs.Stepping.StepInto
import ScriptDebugger.Proofs.Stepping.StepOut
import ScriptDebugger.Proofs.Stepping.SameLevel
import ScriptDebugger.Proofs.Source.Positions
import ScriptDebugger.Proofs.Ledger.Forking
import ScriptDebugger.Proofs.Registry.Refusals
import ScriptDebugger.Proofs.Debugger.Failures
import ScriptDebugger.Proofs.Debugger.Deletions
import ScriptDebugger.Proofs.Registry.PlainSets
import ScriptDebugger.Proofs.Machine.Integers
import ScriptDebugger.Proofs.Source.DumpLines
import ScriptDebugger.Proofs.Invocation.Spelling
import ScriptDebugger.Proofs.Stack.ReadBack
import ScriptDebugger.Proofs.Stack.Walk
import ScriptDebugger.Proofs.Inspection.Variables
import ScriptDebugger.Proofs.Source.LocationText
