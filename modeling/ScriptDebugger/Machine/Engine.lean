import ScriptDebugger.Machine.Frame

/-! The engine: an invocation stack run one instruction at a time over a ledger. Every step on a
frame costs one unit of gas, whatever comes of it. Frames are listed from the top, results from the
bottom and logs from the oldest. An engine whose host is cut off in the middle of an instruction runs
no further, like one that has faulted; `CutOff` tells the two apart. Main statement: a step of an
engine that has not ended lowers its rank, so every run ends. -/
namespace ScriptDebugger

inductive VmState where
  | running
  | halted
  | faulted
  | suspended
  deriving DecidableEq, Repr, Inhabited

namespace VmState

def text : VmState → String
  | .running => "NONE"
  | .halted => "HALT"
  | .faulted => "FAULT"
  | .suspended => "BREAK"

def isTerminal : VmState → Bool
  | .halted | .faulted => true
  | _ => false

end VmState

structure LogEntry where
  contract : ContractHash
  message : String
  deriving DecidableEq, Repr

structure Signer where
  account : ContractHash
  scopes : String
  deriving DecidableEq, Repr

structure Engine where
  state : VmState := .running
  frames : List Frame := []
  results : List StackItem := []
  gas : Nat := 0
  gasLimit : Int
  fault : Option Fault := none
  logs : List LogEntry := []
  ledger : Snapshot
  /-- Milliseconds; where none is set the time is what the clock shows. -/
  timestamp : Option Nat := none
  signers : List Signer := []
  surroundings : Surroundings := {}

namespace Engine

def create (ledger : Snapshot) (timestamp : Option Nat) (signers : List Signer) (gasLimit : Int)
    (surroundings : Surroundings := {}) : Engine :=
  { gasLimit, ledger, timestamp, signers, surroundings }

def setState (e : Engine) (state : VmState) : Engine := { e with state }

def loadScript (e : Engine) (script : Bytes) : Engine :=
  { e with frames := { contract := .ofScript script, script, entry := .script } :: e.frames }

def host (e : Engine) : Host where
  ledger := e.ledger
  time := e.timestamp.getD (e.surroundings.clock e.gas)
  room := e.surroundings.room e.gas

def next? (e : Engine) : Option Instruction := do (← e.frames.head?).fetched.instruction?

def leave (e : Engine) (f : Frame) : List Frame → Engine
  | [] => { e with frames := [], results := f.evaluation.reverse, state := .halted }
  | caller :: rest => { e with frames := f.returnTo caller :: rest }

def apply (e : Engine) (f : Frame) (rest : List Frame) : Effect → Engine
  | .nothing => { e with frames := f :: rest }
  | .enter callee => { e with frames := callee :: f :: rest }
  | .leave => e.leave f rest
  | .log message => { e with frames := f :: rest, logs := e.logs ++ [⟨f.contract, message⟩] }
  | .put key v => { e with frames := f :: rest, ledger := e.ledger.put ⟨f.contract, key⟩ v }

def failWith (e : Engine) (fault : Fault) : Engine :=
  { e with fault := some fault, state := .faulted }

/-- The host did not come out of the last instruction: the call that ran it does not return, and there
is no engine to report on. -/
def CutOff (e : Engine) : Prop := ∃ count, e.fault = some (.cutOff count)

def runFrame (e : Engine) (f : Frame) (rest : List Frame) : Engine :=
  match f.fetched with
  | .ended => e.leave f rest
  | .invalid => e.failWith (.invalidInstruction f.position)
  | .instruction i length =>
    match FrameM.perform e.host f.position i.action { f with position := f.position + length } with
    | .ok effect f => e.apply f rest effect
    | .error fault f => { e with frames := f :: rest }.failWith fault

def payGas (e : Engine) : Engine := { e with gas := e.gas + 1 }

def executeNext (e : Engine) : Engine :=
  if e.state.isTerminal then e
  else match e.frames with
    | [] => e.setState .halted
    | f :: rest =>
      if e.gasLimit < e.payGas.gas then e.payGas.failWith (.outOfGas e.gasLimit)
      else e.payGas.runFrame f rest

def rank (e : Engine) : Nat :=
  if e.state.isTerminal then 0 else (e.gasLimit - e.gas).toNat + 1

theorem leaveGas (e : Engine) (f : Frame) (rest : List Frame) :
    (e.leave f rest).gas = e.gas ∧ (e.leave f rest).gasLimit = e.gasLimit := by
  cases rest <;> exact ⟨rfl, rfl⟩

theorem applyGas (e : Engine) (f : Frame) (rest : List Frame) (effect : Effect) :
    (e.apply f rest effect).gas = e.gas ∧ (e.apply f rest effect).gasLimit = e.gasLimit := by
  cases effect with
  | leave => exact leaveGas e f rest
  | _ => exact ⟨rfl, rfl⟩

theorem runFrameGas (e : Engine) (f : Frame) (rest : List Frame) :
    (e.runFrame f rest).gas = e.gas ∧ (e.runFrame f rest).gasLimit = e.gasLimit := by
  unfold runFrame
  split
  · exact leaveGas e f rest
  · exact ⟨rfl, rfl⟩
  · split
    · exact applyGas ..
    · exact ⟨rfl, rfl⟩

theorem rankOfTerminal {e : Engine} (h : e.state.isTerminal = true) : e.rank = 0 := by
  simp [rank, h]

theorem rankOfAlive {e : Engine} (h : e.state.isTerminal = false) :
    e.rank = (e.gasLimit - e.gas).toNat + 1 := by
  simp [rank, h]

theorem rankBound (e : Engine) : e.rank ≤ (e.gasLimit - e.gas).toNat + 1 := by
  cases h : e.state.isTerminal with
  | true => simp [rankOfTerminal h]
  | false => simp [rankOfAlive h]

theorem rankSetState {e : Engine} {state : VmState} (h : e.state.isTerminal = state.isTerminal) :
    (e.setState state).rank = e.rank := by
  simp [rank, setState, h]

theorem rankDecreases {e : Engine} (h : e.state.isTerminal = false) :
    e.executeNext.rank < e.rank := by
  rw [rankOfAlive h, executeNext, h, if_neg Bool.false_ne_true]
  split
  · rw [rankOfTerminal rfl]; omega
  · next f rest _ =>
    split
    · rw [rankOfTerminal rfl]; omega
    · next enough =>
      have bound := rankBound (e.payGas.runFrame f rest)
      rw [(runFrameGas e.payGas f rest).1, (runFrameGas e.payGas f rest).2] at bound
      simp only [payGas] at bound enough ⊢
      omega

def run (e : Engine) : Engine :=
  if _running : e.state = .running then run e.executeNext else e
termination_by e.rank
decreasing_by exact rankDecreases (by rw [_running]; rfl)

def execute (e : Engine) : Engine :=
  run (if e.state = .suspended then e.setState .running else e)

def trace : Nat → Engine → List Engine
  | 0, _ => []
  | count + 1, e => if e.state.isTerminal then [] else e.executeNext :: trace count e.executeNext

end Engine

end ScriptDebugger
