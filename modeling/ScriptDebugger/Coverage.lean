import Std.Data.ExtTreeMap
import ScriptDebugger.Contract.Hash

/-! Which instructions have run: for each contract that is tracked, a flag for each of its offsets.
Marks of other contracts and offsets are passed over. -/
namespace ScriptDebugger

abbrev Flags := Std.ExtTreeMap Nat Bool

abbrev Coverage := Std.ExtTreeMap ContractHash Flags

namespace Coverage

def seed (c : Coverage) (contract : ContractHash) (offsets : List Nat) : Coverage :=
  c.insert contract (.ofList (offsets.map (·, false)))

def mark (c : Coverage) (contract : ContractHash) (offset : Nat) : Coverage :=
  c.modify contract fun flags => flags.modify offset fun _ => true

def clear (c : Coverage) (contract : ContractHash) : Coverage :=
  c.modify contract fun flags => flags.map fun _ _ => false

end Coverage

end ScriptDebugger
