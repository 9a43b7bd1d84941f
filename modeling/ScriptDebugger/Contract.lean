import ScriptDebugger.Contract.Hash

/-! Deployed contracts: a script, and the methods that may be called, each told apart by its name
and the number of its parameters. -/
namespace ScriptDebugger

structure ContractMethod where
  name : String
  offset : Nat
  parameterCount : Nat
  deriving DecidableEq, Repr

structure Contract where
  id : Int
  hash : ContractHash
  name : String
  script : Bytes
  methods : List ContractMethod
  deriving DecidableEq, Repr

def Contract.method? (c : Contract) (name : String) (parameterCount : Nat) : Option ContractMethod :=
  c.methods.find? fun m => m.name = name ∧ m.parameterCount = parameterCount

end ScriptDebugger
