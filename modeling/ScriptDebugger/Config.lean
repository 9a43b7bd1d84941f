/-! Settings of the debugger. -/
namespace ScriptDebugger

structure Config where
  maxIteratorItems : Nat := 100
  maxGas : Int := 2000000000
  defaultTimestamp : Option Nat := none
  deriving DecidableEq, Repr

end ScriptDebugger
