import ScriptDebugger.Proofs.Machine.Calls
import ScriptDebugger.Proofs.Machine.Outcomes

/-! Where frames come and go. A call that succeeds pushes a frame on that of its caller, which waits
behind the instruction: a call within a script has taken its evaluation stack, one of a contract the
four operands. A frame is left by RET or past the end of its script, and by nothing else. -/
namespace ScriptDebugger

namespace Instruction

-- How the frame of a call is entered. The calls the machine does not support enter none.
def entry? (i : Instruction) : Option Entry :=
  match i.opcode with
  | .CALL | .CALL_L => some .internal
  | .SYSCALL =>
    if i.operand = Bytes.ofNat 4 Interop.contractCall.code then some .contract else none
  | _ => none

inductive Calling (i : Instruction) : Entry → Prop where
  | internal (offset : Int) (action : i.action = .call offset) : Calling i .internal
  | contract (action : i.action = .service Interop.contractCall.code) : Calling i .contract

theorem entryCalling {i : Instruction} {entry : Entry} (calls : i.entry? = some entry) :
    i.Calling entry := by
  obtain ⟨opcode,operand⟩ := i
  unfold entry? at calls
  split at calls
  case h_1 named | h_2 named =>
    cases Option.some.inj calls
    cases named
    exact .internal (Bytes.toInt128 operand) rfl
  case h_3 named =>
    split at calls
    · next listed =>
      cases Option.some.inj calls
      cases named
      cases listed
      exact .contract rfl
    · contradiction
  case h_4 => contradiction

theorem isCallEntry {i : Instruction} (calls : i.isCall = true) :
    (∃ entry, i.entry? = some entry) ∨ i.action = .unsupported i.opcode := by
  obtain ⟨opcode,operand⟩ := i
  cases opcode with
  | CALL | CALL_L => exact .inl ⟨.internal,rfl⟩
  | CALLA | CALLT => exact .inr rfl
  | SYSCALL =>
    have names : operand = Bytes.ofNat 4 Interop.contractCall.code := by
      simpa [isCall, Opcode.isCall] using calls
    exact .inl ⟨.contract,if_pos names⟩
  | _ => simp [isCall, Opcode.isCall] at calls

theorem entryIsCall {i : Instruction} {entry : Entry} (calls : i.entry? = some entry) :
    i.isCall = true := by
  obtain ⟨opcode,operand⟩ := i
  cases opcode with
  | CALL | CALL_L => rfl
  | SYSCALL =>
    change (if operand = Bytes.ofNat 4 Interop.contractCall.code then some Entry.contract else none) =
      some entry at calls
    split at calls
    · next listed => simp [isCall, listed]
    · contradiction
  | _ => contradiction

end Instruction

-- The frame of a caller behind its call, while the frame it called stands above it.
def Frame.waiting (f : Frame) (length : Nat) : Entry → Frame
  | .contract =>
    { f with position := f.position + length, evaluation := f.evaluation.drop 4 }
  | .internal | .script => { f with position := f.position + length, evaluation := [] }

namespace FrameM

variable {α β : Type} {f g : Frame}

theorem doneBind {m : FrameM α} {k : α → FrameM β} {y : β} (done : (m >>= k) f = .ok y g) :
    ∃ x between, m f = .ok x between ∧ k x between = .ok y g := by
  simp only [bind, EStateM.bind] at done
  cases ran : m f with
  | ok x between =>
    rw [ran] at done
    exact ⟨x,between,rfl,done⟩
  | error fault between =>
    rw [ran] at done
    contradiction

structure Drops (count : Nat) (f g : Frame) : Prop where
  held : count ≤ f.evaluation.length
  left : g = { f with evaluation := f.evaluation.drop count }

theorem dropsThen {m n : Nat} {h : Frame} (first : Drops m f g) (second : Drops n g h) :
    Drops (m + n) f h := by
  obtain ⟨held,rfl⟩ := first
  obtain ⟨more,rfl⟩ := second
  simp only [List.length_drop, List.drop_drop] at more ⊢
  exact ⟨by omega,rfl⟩

theorem popDrops {item : StackItem} (done : pop f = .ok item g) : Drops 1 f g := by
  obtain ⟨_,_,got,done⟩ := doneBind done
  cases got
  cases held : f.evaluation with
  | nil =>
    rw [held] at done
    contradiction
  | cons top below =>
    rw [held] at done
    cases done
    exact ⟨by simp [held],by simp [held]⟩

theorem popIntDrops {i : Int} (done : popInt f = .ok i g) : Drops 1 f g := by
  obtain ⟨item,below,held,_,left⟩ := popIntTop done
  exact ⟨by simp [held],by simp [held, left]⟩

theorem popBytesDrops {bytes : Bytes} (done : popBytes f = .ok bytes g) : Drops 1 f g := by
  obtain ⟨item,between,popped,done⟩ := doneBind done
  cases read : item.bytes? with
  | none =>
    rw [read] at done
    contradiction
  | some bytes =>
    rw [read] at done
    cases done
    exact popDrops popped

theorem callInternalDone {start : Nat} {offset : Int} {effect : Effect}
    (done : callInternal start offset f = .ok effect g) :
    g = { f with evaluation := [] } ∧
      ∃ callee, effect = .enter callee ∧ callee.entry = .internal ∧ callee.contract = f.contract := by
  obtain ⟨_,_,got,done⟩ := doneBind done
  cases got
  dsimp only at done
  split at done
  · cases done
    exact ⟨rfl,_,rfl,rfl,rfl⟩
  · contradiction

theorem callContractDone {ledger : Snapshot} {effect : Effect}
    (done : callContract ledger f = .ok effect g) :
    Drops 4 f g ∧ ∃ callee, effect = .enter callee ∧ callee.entry = .contract := by
  obtain ⟨hash,afterHash,poppedHash,done⟩ := doneBind done
  cases named : ContractHash.ofBytes? hash with
  | none =>
    rw [named] at done
    contradiction
  | some contract =>
    rw [named] at done
    obtain ⟨method,afterMethod,poppedMethod,done⟩ := doneBind done
    obtain ⟨flags,afterFlags,poppedFlags,done⟩ := doneBind done
    obtain ⟨item,afterArgs,poppedArgs,done⟩ := doneBind done
    have drops : Drops 4 f afterArgs :=
      dropsThen (dropsThen (dropsThen (popBytesDrops poppedHash) (popBytesDrops poppedMethod))
        (popIntDrops poppedFlags)) (popDrops poppedArgs)
    cases item with
    | array args | struct args =>
      obtain ⟨_,_,taken,done⟩ := doneBind done
      cases taken
      cases found : ledger.contract? contract with
      | none =>
        rw [found] at done
        contradiction
      | some target =>
        rw [found] at done
        dsimp only at done
        cases listed : target.method? (Utf8.decodeLossy method) args.length with
        | none =>
          rw [listed] at done
          contradiction
        | some entry =>
          rw [listed] at done
          cases done
          exact ⟨drops,_,rfl,rfl⟩
    | _ => contradiction

theorem callDone {i : Instruction} {entry : Entry} {host : Host} {start length : Nat}
    {effect : Effect} (calling : i.Calling entry)
    (done : perform host start i.action { f with position := f.position + length } =
      .ok effect g) :
    g = f.waiting length entry ∧ (entry = .contract → 4 ≤ f.evaluation.length) ∧
      ∃ callee, effect = .enter callee ∧ callee.entry = entry ∧
        (entry = .internal → callee.contract = f.contract) := by
  cases calling with
  | internal offset action =>
    rw [action] at done
    obtain ⟨rfl,callee,entered,entry,contract⟩ := callInternalDone done
    exact ⟨rfl,fun wrong => by contradiction,callee,entered,entry,fun _ => contract⟩
  | contract action =>
    rw [action] at done
    simp only [perform, Interop.codeReadBack] at done
    obtain ⟨⟨held,rfl⟩,callee,entered,entry⟩ := callContractDone done
    exact ⟨rfl,fun _ => held,callee,entered,entry,fun wrong => by contradiction⟩

end FrameM

namespace Engine

open FrameM (perform callDone)

theorem headFetched {e : Engine} {i : Instruction} (here : e.next? = some i) :
    ∃ f rest length, e.frames = f :: rest ∧ f.fetched = .instruction i length := by
  unfold next? at here
  cases shape : e.frames with
  | nil =>
    rw [shape] at here
    contradiction
  | cons f rest =>
    rw [shape] at here
    change f.fetched.instruction? = some i at here
    cases fetched : f.fetched with
    | instruction j length =>
      rw [fetched] at here
      cases here
      exact ⟨f,rest,length,rfl,fetched⟩
    | ended | invalid =>
      rw [fetched] at here
      contradiction

-- An instruction after which the engine goes on has been carried out and paid for.
theorem onwardPerformed {e : Engine} {f : Frame} {rest : List Frame} {i : Instruction}
    {length : Nat} (shape : e.frames = f :: rest) (fetched : f.fetched = .instruction i length)
    (onward : e.executeNext.state.isTerminal = false) :
    ∃ effect g, perform e.payGas.host f.position i.action { f with position := f.position + length } =
      .ok effect g ∧ e.executeNext = e.payGas.apply g rest effect := by
  have alive : e.state.isTerminal = false := aliveBefore onward
  by_cases short : e.gasLimit < e.payGas.gas
  · rw [executeNextShort alive shape short] at onward
    contradiction
  rw [executeNextFramed alive shape short] at onward ⊢
  cases ran : perform e.payGas.host f.position i.action { f with position := f.position + length } with
  | error fault g =>
    rw [@runFrameFailed e.payGas f g rest i length fault fetched ran] at onward
    contradiction
  | ok effect g => exact ⟨effect,g,rfl,@runFrameDone e.payGas f g rest i length effect fetched ran⟩

theorem callSupported {e : Engine} {i : Instruction} (here : e.next? = some i)
    (calls : i.isCall = true) (onward : e.executeNext.state.isTerminal = false) :
    ∃ entry, i.entry? = some entry := by
  rcases Instruction.isCallEntry calls with named | missing
  · exact named
  · obtain ⟨f,rest,length,shape,fetched⟩ := headFetched here
    obtain ⟨effect,g,ran,_⟩ := onwardPerformed shape fetched onward
    rw [missing] at ran
    contradiction

structure Entering (e : Engine) (entry : Entry) (caller callee : Frame) (below : List Frame)
    (length : Nat) : Prop where
  shape : e.frames = caller :: below
  held : entry = .contract → 4 ≤ caller.evaluation.length
  entered : callee.entry = entry
  contract : entry = .internal → callee.contract = caller.contract
  after : e.executeNext =
    { e.payGas with frames := callee :: caller.waiting length entry :: below }

theorem callEnters {e : Engine} {i : Instruction} {entry : Entry} (here : e.next? = some i)
    (calls : i.entry? = some entry) (onward : e.executeNext.state.isTerminal = false) :
    ∃ caller callee below length, e.Entering entry caller callee below length ∧
      caller.fetched = .instruction i length := by
  obtain ⟨caller,below,length,shape,fetched⟩ := headFetched here
  obtain ⟨effect,g,ran,after⟩ := onwardPerformed shape fetched onward
  obtain ⟨rfl,held,callee,rfl,entered,contract⟩ := callDone (Instruction.entryCalling calls) ran
  exact ⟨caller,callee,below,length,⟨shape,held,entered,contract,after⟩,fetched⟩

end Engine

end ScriptDebugger
