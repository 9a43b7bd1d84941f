import ScriptDebugger.Bytes.Base64
import ScriptDebugger.Contract.Hash
import ScriptDebugger.Files
import ScriptDebugger.Source.Location

/-! Everything a command of the debugger may refuse, by cause, and the message of each cause. A
fault of the machine is none of these: it is part of a report. -/
namespace ScriptDebugger

inductive ArgumentError where
  | hash (text : String) (cause : ContractHash.ReadError)
  | location (text : String) (cause : SourceLocation.ReadError)
  | malformed
  | notList (kind : String)
  | noEnvelope
  | boolean (text : String)
  | integer (text : String) (cause : Numeral.ReadError)
  | base64 (cause : Base64.ReadError)
  | mismatch (type kind : String)
  | unknownType (type : String)
  | signers
  | noSibling (path : String)
  deriving DecidableEq, Repr

inductive MetadataError where
  | malformed
  | emptyDescriptor (raw : String)
  | slot (raw : String) (cause : Numeral.ReadError)
  | range (raw : String)
  | unreadable (path : String) (cause : FileError)
  deriving DecidableEq, Repr

inductive ConfigError where
  | malformed
  | unreadable (path : String) (cause : FileError)
  deriving DecidableEq, Repr

inductive Error where
  | notRegistered (contract : ContractHash) (name : Option String)
  | invalidLocation (location : SourceLocation)
  | invalidOffset (contract : ContractHash) (offset : Nat)
  | unknownOpcode (line : Nat) (mnemonic : String)
  | invalidDebugInfo (cause : MetadataError)
  | engineHalted
  | engineFaulted
  | sessionNotFound (name : String)
  | sessionExists (name : String)
  | noDebugInProgress (name : String)
  | frameOutOfRange (index depth : Nat)
  | variableNotFound (name : String)
  | contractNotFound (contract : ContractHash)
  | methodNotFound (contract : ContractHash) (method : String) (parameterCount : Nat)
  | invalidArguments (cause : ArgumentError)
  | config (cause : ConfigError)
  deriving DecidableEq, Repr

abbrev Result := Except Error

def ArgumentError.message : ArgumentError → String
  | .hash text cause => s!"invalid hash '{text}': {cause.message}"
  | .location text .noColon => s!"expected <file>:<line>, got '{text}'"
  | .location text (.line cause) => s!"invalid line in '{text}': {cause.message}"
  | .malformed => "Invalid JSON in arguments"
  | .notList kind => s!"arguments must be a JSON array, got {kind}"
  | .noEnvelope => "objects must be \x7b\"type\", \"value\"\x7d envelopes"
  | .boolean text => s!"invalid Boolean '{text}'"
  | .integer text cause => s!"invalid Integer '{text}': {cause.message}"
  | .base64 cause => s!"invalid base64 ByteArray: {cause.message}"
  | .mismatch type kind => s!"{type} parameter cannot be built from a JSON {kind}"
  | .unknownType type => s!"unsupported parameter type '{type}'"
  | .signers => "Invalid signers"
  | .noSibling path => s!"cannot derive a dump path from {path}; pass --dump"

def MetadataError.message : MetadataError → String
  | .malformed => "malformed metadata"
  | .emptyDescriptor raw => s!"empty variable descriptor '{raw}'"
  | .slot raw cause => s!"bad slot in descriptor '{raw}': {cause.message}"
  | .range raw => s!"bad method range '{raw}'"
  | .unreadable path cause => s!"failed to read {path}: {cause.message}"

def ConfigError.message : ConfigError → String
  | .malformed => "configuration error"
  | .unreadable path cause => s!"configuration error: failed to read {path}: {cause.message}"

def namedContract (contract : ContractHash) : Option String → String
  | some name => s!"{contract.text} ({name})"
  | none => contract.text

def Error.message : Error → String
  | .notRegistered contract name =>
    s!"no debug info registered for contract {namedContract contract name}"
  | .invalidLocation location => s!"no code is generated for {location.file} line {location.line}"
  | .invalidOffset contract offset =>
    s!"offset {offset} is not an instruction of contract {contract.text}"
  | .unknownOpcode line mnemonic => s!"unknown opcode '{mnemonic}' at dump line {line}"
  | .invalidDebugInfo cause => s!"invalid debug info: {cause.message}"
  | .engineHalted => "execution already halted; start a new debug invocation"
  | .engineFaulted => "execution already faulted; start a new debug invocation"
  | .sessionNotFound name => s!"session '{name}' does not exist"
  | .sessionExists name => s!"session '{name}' already exists"
  | .noDebugInProgress name => s!"no debug invocation is in progress for session '{name}'"
  | .frameOutOfRange index depth =>
    s!"frame index {index} out of range (invocation stack depth {depth})"
  | .variableNotFound name => s!"variable '{name}' not found"
  | .contractNotFound contract => s!"contract {contract.text} is not deployed"
  | .methodNotFound contract method parameterCount =>
    s!"method '{method}' with {parameterCount} parameter(s) not found in contract {contract.text}"
  | .invalidArguments cause => s!"invalid arguments: {cause.message}"
  | .config cause => cause.message

def Error.withName (nameOf : ContractHash → Option String) : Error → Error
  | .notRegistered contract none => .notRegistered contract (nameOf contract)
  | e => e

def ContractHash.read (text : String) : Result ContractHash :=
  (ContractHash.parse text).mapError fun cause => .invalidArguments (.hash text cause)

def SourceLocation.read (text : String) : Result SourceLocation :=
  (SourceLocation.parse text).mapError fun cause => .invalidArguments (.location text cause)

end ScriptDebugger
