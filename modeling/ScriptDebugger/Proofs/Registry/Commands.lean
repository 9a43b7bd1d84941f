import ScriptDebugger.Request

/-! The operations on a registry, carried out in place, do what they are as functions of the tables: the
same answers and the same tables in the end. One that is refused has changed none of them, at whichever
of its checks it was refused. -/
namespace ScriptDebugger

namespace Registry.Command

variable {α β : Type} {r : Registry}

def CarriesOut (c : Command α) (r : Registry) (outcome : Result (α × Registry)) : Prop :=
  c.run r = match outcome with
    | .ok (answer,next) => .ok answer next
    | .error cause => .error cause r

-- Nothing has been changed when a check is made, so a refusal there leaves the tables as they are.
theorem carriesChecked {check : Result β} {c : β → Command α} {outcome : β → Result (α × Registry)}
    (granted : ∀ x, check = .ok x → CarriesOut (c x) r (outcome x)) :
    CarriesOut (ofResult check >>= c) r (check >>= outcome) := by
  cases check with
  | error cause => rfl
  | ok x => exact granted x rfl

theorem carriesRead {f : Registry → Result β} {c : β → Command α}
    {outcome : β → Result (α × Registry)}
    (granted : ∀ x, f r = .ok x → CarriesOut (c x) r (outcome x)) :
    CarriesOut (reading f >>= c) r (f r >>= outcome) := carriesChecked granted

theorem carriesAnswer {c : Command α} {outcome : Result (α × Registry)} (f : α → β)
    (carried : CarriesOut c r outcome) :
    CarriesOut (do return f (← c)) r (do let (x,next) ← outcome; return (f x,next)) := by
  unfold CarriesOut at *
  rw [EStateM.run_bind, carried]
  cases outcome <;> rfl

theorem carriesDone {c : Command Unit} {outcome : Result Registry} (answer : α)
    (carried : CarriesOut c r (do return ((),← outcome))) :
    CarriesOut (do c; return answer) r (do return (answer,← outcome)) := by
  unfold CarriesOut at *
  rw [EStateM.run_bind, carried]
  cases outcome <;> rfl

theorem carriesInfo (contract : ContractHash) (metadata dump : String) :
    CarriesOut (setDebugInfo contract metadata dump) r
      (do return ((),← r.setDebugInfo contract metadata dump)) := by
  unfold Registry.setDebugInfo
  rw [bind_assoc]
  exact carriesChecked fun _ _ => rfl

-- The answers given so far play no part in what is deleted.
theorem carriesDeleted (contracts : List ContractHash) (answers : Std.ExtTreeMap ContractHash Bool) :
    CarriesOut
      (contracts.foldlM (fun answers contract => return answers.insert contract (← forget contract))
        answers) r
      (.ok (contracts.foldl (fun (answers,r) contract =>
        (answers.insert contract (profile? r contract).isSome,Registry.forget r contract))
          (answers,r))) := by
  induction contracts generalizing r answers with
  | nil => rfl
  | cons head rest ih => exact ih (answers.insert head (r.profile? head).isSome)

theorem carriesAssembly (contract : ContractHash) (offsets : List Nat) :
    CarriesOut (setAssemblyBreakpoints contract offsets) r
      (r.setAssemblyBreakpoints contract offsets) := by
  unfold CarriesOut setAssemblyBreakpoints Registry.setAssemblyBreakpoints
  rw [EStateM.run_bind, EStateM.run_get]
  dsimp only
  cases r.profile? contract with
  | none => rfl
  | some p =>
    dsimp only
    cases offsets.find? fun o => (p.map.opcode? o).isNone <;> rfl

theorem carriesSource (contract : ContractHash) (locations : List SourceLocation) :
    CarriesOut (setSourceBreakpoints contract locations) r
      (do return ((),← r.setSourceBreakpoints contract locations)) := by
  unfold Registry.setSourceBreakpoints
  rw [bind_assoc]
  refine carriesRead fun p known => ?_
  unfold CarriesOut
  cases locations.find? fun l => !p.map.locations.contains l <;> rfl

theorem carriesSourceDeleted (contract : ContractHash) (locations : List SourceLocation) :
    CarriesOut (deleteSourceBreakpoints contract locations) r
      (r.deleteSourceBreakpoints contract locations) := carriesRead fun _ _ => rfl

theorem carriesCleared (contract : ContractHash) :
    CarriesOut (clearCoverage contract) r (r.clearCoverage contract) := carriesRead fun _ _ => rfl

end Registry.Command

open Registry.Command

theorem RegistryRequest.carriedOut (request : RegistryRequest) (r : Registry) :
    CarriesOut request.command r (request.perform r) := by
  cases request with
  | setDebugInfo contract metadata dump =>
    exact carriesDone Answer.done (carriesInfo contract metadata dump)
  | deleteDebugInfo contracts => exact carriesAnswer Answer.forgotten (carriesDeleted contracts ∅)
  | setAssembly contract offsets =>
    exact carriesAnswer Answer.offsetFlags (carriesAssembly contract offsets)
  | setSource contract lines =>
    exact carriesDone (Answer.locations lines) (carriesSource contract lines)
  | deleteSource contract lines =>
    exact carriesAnswer Answer.locationFlags (carriesSourceDeleted contract lines)
  | clearCoverage contract => exact carriesAnswer Answer.offsetFlags (carriesCleared contract)
  | filenames | source | locations | coverage => exact carriesRead fun _ _ => rfl
  | debugInfos | assembly | deleteAssembly => rfl

end ScriptDebugger
