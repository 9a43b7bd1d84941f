import ScriptDebugger.Invocation.Arguments

/-! Invocations of methods of deployed contracts, and the engines that run them. The target is
looked up before anything runs; the engine works on a fork of the state it is given, in the
surroundings that come with the invocation. -/
namespace ScriptDebugger

structure Invocation where
  session : String
  writeback : Bool := false
  contract : ContractHash
  method : String
  args : List Parameter
  signers : List Signer
  surroundings : Surroundings := {}

namespace Invocation

def resolve (s : Snapshot) (contract : ContractHash) (method : String) (args : List Parameter) :
    Result Contract := do
  let some target := s.contract? contract | throw (.contractNotFound contract)
  if (target.method? method args.length).isNone then
    throw (.methodNotFound contract method args.length)
  return target

def ofTexts (session : String) (contract : ContractHash) (method : String) (args : String)
    (signers : Option String) (writeback : Bool) (surroundings : Surroundings := {}) :
    Result Invocation := do
  let args ← Parameter.readAll args
  let signers ← Signer.readAll signers
  return { session, writeback, contract, method, args, signers, surroundings }

def script (i : Invocation) : Bytes := Emission.call i.contract i.method i.args

def prepare (i : Invocation) (s : Snapshot) (timestamp : Option Nat) (gasLimit : Int) :
    Result Engine := do
  discard (resolve s i.contract i.method i.args)
  return (Engine.create s.fork timestamp i.signers gasLimit i.surroundings).loadScript i.script

end Invocation

end ScriptDebugger
