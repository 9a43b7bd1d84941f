import ScriptDebugger.Invocation
import ScriptDebugger.Proofs.Ledger.Reading
import ScriptDebugger.Proofs.Machine.Calls
import ScriptDebugger.Proofs.Machine.Parameters

/-! The call of an entry script. Looking up the target beforehand and the call that the script makes
agree: the call pushes a frame of the method that was found, with the arguments in order, or faults
for the reason that the look-up failed. -/
namespace ScriptDebugger.Invocation

def loaded (i : Invocation) (s : Snapshot) (timestamp : Option Nat) (gasLimit : Int) : Engine :=
  (Engine.create s.fork timestamp i.signers gasLimit i.surroundings).loadScript i.script

def operands (i : Invocation) : Bytes :=
  Emission.array i.args ++ Emission.int Emission.allFlags ++ Emission.text i.method ++
    Emission.data i.contract.bytes

/-- What the entry script costs up to its call. -/
def cost (i : Invocation) : Nat := Parameter.cost (.list i.args) + 1 + 1 + 1

/-- The reason for which the look-up fails, and that for which the call faults. -/
inductive SameCause (i : Invocation) : Error → Fault → Prop where
  | contract : SameCause i (.contractNotFound i.contract) (.contractNotFound i.contract)
  | method :
      SameCause i (.methodNotFound i.contract i.method i.args.length)
        (.methodNotFound i.contract i.method i.args.length)

def callee (i : Invocation) (target : Contract) (entry : ContractMethod) : Frame where
  contract := i.contract
  script := target.script
  position := entry.offset
  entry := .contract
  evaluation := i.args.map Parameter.meaning

/-- The engine is about to make the call, and the call agrees with the look-up in the state. -/
structure Agrees (i : Invocation) (s : Snapshot) (e : Engine) : Prop where
  running : e.state = .running
  script : e.frames.map Frame.script = [i.script]
  calls : e.next? = some Engine.callInstruction
  enters : (∃ target, resolve s i.contract i.method i.args = .ok target) ↔ ∃ f, e.Enters f
  entered : ∀ target f, resolve s i.contract i.method i.args = .ok target → e.Enters f →
    ∃ entry, target.method? i.method i.args.length = some entry ∧ f = i.callee target entry
  slots : ∀ f localCount, e.Enters f → i.args.length < 256 → e.gas + 2 ≤ e.gasLimit →
    f.fetched.instruction? = some ⟨.INITSLOT,[localCount,UInt8.ofNat i.args.length]⟩ →
    ∃ opened rest, e.executeNext.executeNext.frames = opened :: rest ∧
      opened.arguments = some (i.args.map Parameter.meaning)
  causes : ∀ error, resolve s i.contract i.method i.args = .error error →
    ∃ fault, SameCause i error fault
  refuses : ∀ error fault, SameCause i error fault →
    (resolve s i.contract i.method i.args = .error error ↔ e.FaultsWith fault)

inductive Outcome (i : Invocation) (s : Snapshot) (e : Engine) : Prop where
  | refused (error : Error) (fault : Fault) (same : SameCause i error fault)
      (looked : resolve s i.contract i.method i.args = .error error) (faults : e.FaultsWith fault)
  | found (target : Contract) (entry : ContractMethod)
      (looked : resolve s i.contract i.method i.args = .ok target)
      (listed : target.method? i.method i.args.length = some entry)
      (enters : e.Enters (i.callee target entry))

variable {i : Invocation} {s : Snapshot} {e : Engine} {f : Frame} {rest : List Frame}
  {below : List StackItem}

theorem outcomeOfCall (running : e.state = .running) (shape : e.frames = f :: rest)
    (reads : e.ledger.Alike s)
    (here : Engine.callInstruction.encode <+: f.script.drop f.position)
    (held : f.evaluation = .byteString i.contract.bytes :: .byteString (Utf8.encode i.method) ::
      .integer Emission.allFlags :: .array (i.args.map Parameter.meaning) :: below)
    (enough : e.gas + 1 ≤ e.gasLimit) : Outcome i s e := by
  obtain ⟨caller,next⟩ := Engine.executeCall (by rw [running]; rfl) shape here held enough
  rw [reads.contracts, List.length_map] at next
  cases found : s.contract? i.contract with
  | none =>
    rw [found] at next
    exact .refused _ _ .contract (by simp only [resolve, found]; rfl)
      ⟨congrArg _ next,congrArg _ next⟩
  | some target =>
    simp only [found] at next
    cases listed : target.method? i.method i.args.length with
    | none =>
      rw [listed] at next
      exact .refused _ _ .method (by simp only [resolve, found, listed]; rfl)
        ⟨congrArg _ next,congrArg _ next⟩
    | some entry =>
      rw [listed] at next
      refine .found target entry (by simp only [resolve, found, listed]; rfl) listed ⟨?_,caller,?_⟩
      · rw [next]
        rfl
      · rw [next, shape]
        rfl

theorem causeExact {error other : Error} {fault cause : Fault} (one : SameCause i error fault)
    (two : SameCause i other cause) : error = other ↔ fault = cause := by
  cases one <;> cases two <;> simp

theorem slotsOfEntered {callee : Frame} {localCount : UInt8} (running : e.state = .running)
    (enters : e.Enters callee) (few : callee.evaluation.length < 256)
    (enough : e.gas + 2 ≤ e.gasLimit)
    (opens : callee.fetched.instruction? =
      some ⟨.INITSLOT,[localCount,UInt8.ofNat callee.evaluation.length]⟩) :
    ∃ opened rest, e.executeNext.executeNext.frames = opened :: rest ∧
      opened.arguments = some callee.evaluation := by
  obtain ⟨kept,caller,shape⟩ := enters
  obtain ⟨gas,limit⟩ := Engine.executeNextGas e
  have alive : e.executeNext.state.isTerminal = false := by
    rw [kept, running]
    rfl
  obtain ⟨opened,frames,filled⟩ := Engine.executeOpenSlots alive shape opens few (by omega)
  exact ⟨opened,_,frames,filled⟩

theorem agreesOfOutcome (running : e.state = .running)
    (script : e.frames.map Frame.script = [i.script])
    (calls : e.next? = some Engine.callInstruction) (outcome : Outcome i s e) : i.Agrees s e := by
  cases outcome with
  | refused error fault same looked faults =>
    have never : ∀ f, ¬ e.Enters f := fun _ enters => Engine.entersNoFault running enters faults
    refine ⟨running,script,calls,?_,?_,?_,?_,?_⟩
    · simp [looked, never]
    · intro target f found
      rw [looked] at found
      contradiction
    · intro f localCount enters
      exact absurd enters (never f)
    · intro other found
      rw [looked] at found
      cases found
      exact ⟨fault,same⟩
    · intro other cause alike
      have faulted : e.FaultsWith cause ↔ fault = cause :=
        ⟨Engine.faultsOnce faults,fun own => own ▸ faults⟩
      rw [looked, Except.error.injEq, causeExact same alike, faulted]
  | found target entry looked listed enters =>
    have never : ∀ fault, ¬ e.FaultsWith fault := fun _ => Engine.entersNoFault running enters
    refine ⟨running,script,calls,⟨fun _ => ⟨_,enters⟩,fun _ => ⟨target,looked⟩⟩,?_,?_,?_,?_⟩
    · intro other f found own
      rw [looked] at found
      cases found
      exact ⟨entry,listed,Engine.entersOnce own enters⟩
    · intro f localCount own few enough opens
      cases Engine.entersOnce own enters
      have size : (i.callee target entry).evaluation.length = i.args.length := List.length_map _
      rw [← size] at few opens
      exact slotsOfEntered running enters few enough opens
    · simp [looked]
    · simp [looked, never]

theorem turnsOperands (emittable : (Parameter.list i.args).Emittable)
    (short : (Utf8.encode i.method).length < Bytes.count 4) :
    Engine.Turns i.operands i.cost []
      [.byteString i.contract.bytes,.byteString (Utf8.encode i.method),
        .integer Emission.allFlags,.array (i.args.map Parameter.meaning)] := by
  have fits : i.contract.bytes.length < Bytes.count 4 := by
    rw [i.contract.length_eq]
    decide
  have args := Engine.turnsParameter emittable
  have flags := Engine.turnsPushes (@Emission.pushesInt Emission.allFlags (by decide))
  have method := Engine.turnsPushes (Emission.pushesData short)
  have hash := Engine.turnsPushes (Emission.pushesData fits)
  rw [← Parameter.meaningsMap]
  exact Engine.turnsThen
    (Engine.turnsThen (Engine.turnsThen args (Engine.turnsOver flags _)) (Engine.turnsOver method _))
    (Engine.turnsOver hash _)

theorem entryAgrees {timestamp : Option Nat} {gasLimit : Int}
    (emittable : (Parameter.list i.args).Emittable)
    (short : (Utf8.encode i.method).length < Bytes.count 4)
    (enough : (i.cost + 1 : Int) ≤ gasLimit) :
    i.Agrees s (Engine.executeNext^[i.cost] (i.loaded s timestamp gasLimit)) := by
  have loads : ((i.loaded s timestamp gasLimit).gas + i.cost : Int) ≤ gasLimit := by
    change ((0 : Nat) + i.cost : Int) ≤ gasLimit
    omega
  have reached := turnsOperands emittable short (i.loaded s timestamp gasLimit) _ [] [] rfl rfl rfl
    ⟨Engine.callInstruction.encode,rfl⟩ loads
  have here : Engine.callInstruction.encode <+: i.script.drop (0 + i.operands.length) :=
    codeOnward (List.prefix_refl i.script)
  rw [reached]
  apply agreesOfOutcome rfl rfl
  · exact congrArg Fetched.instruction? (fetchEncoded Engine.callFits here)
  · apply outcomeOfCall rfl rfl (Snapshot.forkAlike s) here rfl
    change ((0 + i.cost : Nat) + 1 : Int) ≤ gasLimit
    omega

theorem entryAgreesOnPair :
    let chain : Snapshot := .deploy .empty ⟨1,.zero,"Pair",[0x57,0,2,0x40],[⟨"main",0,2⟩]⟩
    let i : Invocation :=
      { session := "a", contract := .zero, method := "main", args := [.integer 7,.list []],
        signers := [] }
    let e := Engine.executeNext^[7] (i.loaded chain none 8)
    i.Agrees chain e ∧ ∃ f, e.Enters f := by
  intro chain i e
  have emittable : (Parameter.list i.args).Emittable := by
    refine .list _ (by decide) fun item member => ?_
    simp only [i, List.mem_cons, List.not_mem_nil, or_false] at member
    rcases member with rfl | rfl
    · exact .integer 7 (by decide)
    · exact .list [] (by decide) fun _ none => absurd none List.not_mem_nil
  have short : (Utf8.encode i.method).length < Bytes.count 4 := by
    rw [Utf8.encodeChars]
    decide
  have agrees : i.Agrees chain e := entryAgrees emittable short (by decide)
  have looked : resolve chain i.contract i.method i.args = .ok _ := rfl
  exact ⟨agrees,agrees.enters.mp ⟨_,looked⟩⟩

end ScriptDebugger.Invocation
