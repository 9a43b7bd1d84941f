import ScriptDebugger.Proofs.Registry.Consistency
import ScriptDebugger.Proofs.Stepping.Visits

/-! What the operations of a registry do to a flag. To make a contract known or to clear its coverage
puts its flags down and leaves those of others, and to forget contracts drops theirs. A contract that
is known has a flag for each of its instructions. -/
namespace ScriptDebugger

namespace Coverage

variable {coverage : Coverage} {contract other : ContractHash}

theorem seedLow (offsets : List Nat) (offset : Nat) :
    (coverage.seed contract offsets).flag? contract offset ≠ some true := by
  rw [flag?, seed, Std.ExtTreeMap.getElem?_insert_self, Option.bind_some,
    flagsAlike]
  split <;> simp

theorem seedOther (offsets : List Nat) (offset : Nat) (apart : contract ≠ other) :
    (coverage.seed contract offsets).flag? other offset = coverage.flag? other offset := by
  simp [flag?, seed, Std.ExtTreeMap.getElem?_insert, apart]

theorem clearLow (offset : Nat) : (coverage.clear contract).flag? contract offset ≠ some true := by
  unfold flag? clear
  rw [Std.ExtTreeMap.getElem?_modify_self]
  cases coverage[contract]? <;> simp

theorem clearOther (offset : Nat) (apart : contract ≠ other) :
    (coverage.clear contract).flag? other offset = coverage.flag? other offset := by
  simp [flag?, clear, Std.ExtTreeMap.getElem?_modify, apart]

end Coverage

namespace Registry

theorem forgetFlag (r : Registry) (contracts : List ContractHash) (contract : ContractHash)
    (offset : Nat) :
    (contracts.foldl forget r).coverage.flag? contract offset =
      if contract ∈ contracts then none else r.coverage.flag? contract offset := by
  induction contracts generalizing r with
  | nil => rfl
  | cons head tail ih =>
    rw [List.foldl_cons, ih]
    by_cases own : contract = head
    · subst own
      simp [forget, Coverage.flag?]
    · simp [forget, Coverage.flag?, Std.ExtTreeMap.getElem?_erase, own, Ne.symm own]

theorem profileTracked {r : Registry} (consistent : r.Consistent) {contract : ContractHash}
    {offset : Nat} {p : Profile}
    (known : r.profile? contract = some p) (listed : offset ∈ p.map.opcodes) :
    (r.coverage.flag? contract offset).isSome = true := by
  have covered := consistent.covered contract
  rw [known] at covered
  unfold Coverage.flag?
  generalize r.coverage[contract]? = flags at covered ⊢
  cases covered with
  | some covers =>
    rw [Option.bind_some, ← Std.ExtTreeMap.mem_iff_isSome_getElem?]
    exact (covers.2 offset).mpr listed

end Registry

end ScriptDebugger
