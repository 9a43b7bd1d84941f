import ScriptDebugger.Proofs.Machine.Course

/-! What one instruction may do to an engine, said once. It keeps the contract, the script and the entry
of its own frame and does not touch the frames below; then it goes on, pushes a frame that is no entry
script, leaves its frame, or faults while that frame still stands. -/
namespace ScriptDebugger

structure Frame.Kin (f g : Frame) : Prop where
  contract : g.contract = f.contract
  script : g.script = f.script
  entry : g.entry = f.entry

theorem Frame.kinRefl (f : Frame) : f.Kin f := ⟨rfl,rfl,rfl⟩

theorem Frame.kinTrans {f g h : Frame} (first : f.Kin g) (second : g.Kin h) : f.Kin h :=
  ⟨second.contract.trans first.contract,second.script.trans first.script,
    second.entry.trans first.entry⟩

theorem Frame.kinSlots (f : Frame) (kind : SlotKind) (items : List StackItem) :
    f.Kin (f.setSlots kind items) := by
  cases kind <;> exact ⟨rfl,rfl,rfl⟩

theorem Frame.kinReturn (f caller : Frame) : caller.Kin (f.returnTo caller) := by
  unfold returnTo
  split <;> exact ⟨rfl,rfl,rfl⟩

def Frame.Leaves (f : Frame) : Prop :=
  f.fetched = .ended ∨ ∃ i length, f.fetched = .instruction i length ∧ i.opcode = .RET

theorem Instruction.returnOpcode {i : Instruction} (returns : i.action = .ret) : i.opcode = .RET := by
  obtain ⟨opcode,operand⟩ := i
  cases opcode <;> first | rfl | contradiction

def Effect.Lawful : Effect → Prop
  | .enter callee => callee.entry ≠ .script
  | _ => True

-- Of the effects, an action asks for a lawful one, and to leave the frame only where it returns.
def Effect.Allowed (action : Action) : Effect → Prop
  | .enter callee => callee.entry ≠ .script
  | .leave => action = .ret
  | _ => True

-- Of the causes to end for, only a pack may be cut off.
def Fault.Allowed (action : Action) : Fault → Prop
  | .cutOff _ => action = .pack
  | _ => True

theorem Effect.lawfulAllowed {action : Action} {effect : Effect} (allowed : effect.Allowed action) :
    effect.Lawful := by
  cases effect with
  | enter callee => exact allowed
  | _ => trivial

namespace FrameM

variable {α β : Type} {p : α → Prop} {q : β → Prop} {action : Action}

-- Whatever comes of `m` in this frame as a part of the action, it stays in the frame, and what it
-- yields is as `p` says.
def GivesFrom (action : Action) (f : Frame) (m : FrameM α) (p : α → Prop) : Prop :=
  match m f with
  | .ok x g => f.Kin g ∧ p x
  | .error fault g => f.Kin g ∧ fault.Allowed action

def Gives (action : Action) (m : FrameM α) (p : α → Prop) : Prop := ∀ f, GivesFrom action f m p

theorem givesPure {x : α} (holds : p x) : Gives action (pure x) p := fun f => ⟨f.kinRefl,holds⟩

theorem givesThrow {fault : Fault} (allowed : fault.Allowed action) : Gives action (throw fault) p :=
  fun f => ⟨f.kinRefl,allowed⟩

theorem givesSet {f g : Frame} (kin : f.Kin g) : GivesFrom action f (set g) fun _ => True :=
  ⟨kin,trivial⟩

theorem givesModify {change : Frame → Frame} (kin : ∀ f : Frame, f.Kin (change f)) :
    Gives action (modify change) fun _ => True := fun f => ⟨kin f,trivial⟩

theorem givesGet {k : Frame → FrameM α} (next : ∀ f, GivesFrom action f (k f) p) :
    Gives action (get >>= k) p := next

theorem givesFromBind {f : Frame} {m : FrameM α} {k : α → FrameM β}
    (first : GivesFrom action f m p) (next : ∀ x, p x → Gives action (k x) q) :
    GivesFrom action f (m >>= k) q := by
  simp only [GivesFrom, bind, EStateM.bind] at first ⊢
  cases ran : m f with
  | error fault g => rwa [ran] at first
  | ok x g =>
    rw [ran] at first
    have rest := next x first.2 g
    dsimp only [GivesFrom] at rest ⊢
    cases onward : k x g with
    | error fault h =>
      rw [onward] at rest
      exact ⟨Frame.kinTrans first.1 rest.1,rest.2⟩
    | ok y h =>
      rw [onward] at rest
      exact ⟨Frame.kinTrans first.1 rest.1,rest.2⟩

theorem givesBind {m : FrameM α} {k : α → FrameM β} (first : Gives action m p)
    (next : ∀ x, p x → Gives action (k x) q) : Gives action (m >>= k) q :=
  fun f => givesFromBind (first f) next

theorem givesPop : Gives action pop fun _ => True := by
  refine givesGet fun f => ?_
  cases f.evaluation with
  | nil => exact ⟨f.kinRefl,trivial⟩
  | cons item rest => exact ⟨⟨rfl,rfl,rfl⟩,trivial⟩

theorem givesPush (item : StackItem) : Gives action (push item) fun _ => True :=
  givesModify fun _ => ⟨rfl,rfl,rfl⟩

theorem givesPopInt : Gives action popInt fun _ => True := by
  refine givesBind givesPop fun item _ => ?_
  cases item.toInt? with
  | none => exact givesThrow trivial
  | some i => exact givesPure trivial

theorem givesPopBytes : Gives action popBytes fun _ => True := by
  refine givesBind givesPop fun item _ => ?_
  cases item.bytes? with
  | none => exact givesThrow trivial
  | some bytes => exact givesPure trivial

theorem givesPopMany (count : Nat) : Gives action (popMany count) fun _ => True := by
  induction count with
  | zero => exact givesPure trivial
  | succ count ih =>
    exact givesBind givesPop fun _ _ => givesBind ih fun _ _ => givesPure trivial

theorem givesJump (start : Nat) (offset : Int) : Gives action (jump start offset) fun _ => True := by
  refine givesGet fun f => ?_
  dsimp only
  split
  · exact givesSet ⟨rfl,rfl,rfl⟩
  · exact ⟨f.kinRefl,trivial⟩

theorem givesLoad (kind : SlotKind) (index : Nat) : Gives action (load kind index) fun _ => True := by
  refine givesGet fun f => ?_
  cases (f.slots kind).bind (·[index]?) with
  | none => exact ⟨f.kinRefl,trivial⟩
  | some item => exact ⟨⟨rfl,rfl,rfl⟩,trivial⟩

theorem givesStore (kind : SlotKind) (index : Nat) : Gives action (store kind index) fun _ => True := by
  refine givesBind givesPop fun item _ => givesGet fun f => ?_
  cases f.slots kind with
  | none => exact ⟨f.kinRefl,trivial⟩
  | some items =>
    dsimp only
    split
    · exact givesSet (f.kinSlots kind _)
    · exact ⟨f.kinRefl,trivial⟩

theorem givesPack (room : Nat) : Gives .pack (pack room) fun _ => True := by
  refine givesBind givesPopInt fun count _ => givesGet fun f => ?_
  dsimp only
  split
  · exact ⟨f.kinRefl,trivial⟩
  · split
    · exact ⟨f.kinRefl,rfl⟩
    · exact givesBind (givesPopMany _) (fun items _ => givesPush _) f

theorem givesNothing {m : FrameM Unit} (stays : Gives action m fun _ => True) :
    Gives action (m >>= fun _ => pure .nothing) (Effect.Allowed action) :=
  givesBind stays fun _ _ => givesPure trivial

theorem givesCallInternal (start : Nat) (offset : Int) :
    Gives action (callInternal start offset) (Effect.Allowed action) := by
  refine givesGet fun f => ?_
  dsimp only
  split
  · exact givesFromBind (givesSet ⟨rfl,rfl,rfl⟩) fun _ _ => givesPure (by simp [Effect.Allowed])
  · exact ⟨f.kinRefl,trivial⟩

theorem givesCallContract (ledger : Snapshot) :
    Gives action (callContract ledger) (Effect.Allowed action) := by
  refine givesBind givesPopBytes fun hash _ => ?_
  cases ContractHash.ofBytes? hash with
  | none => exact givesThrow trivial
  | some contract =>
    refine givesBind givesPopBytes fun method _ => givesBind givesPopInt fun _ _ =>
      givesBind givesPop fun item _ => ?_
    cases item with
    | array args | struct args =>
      refine givesBind (p := fun _ => True) (givesPure trivial) fun _ _ => ?_
      split
      · dsimp only
        split
        · exact givesPure (by simp [Effect.Allowed])
        · exact givesThrow trivial
      · exact givesThrow trivial
    | _ => exact givesThrow trivial

theorem givesCallService (host : Host) (service : Interop) :
    Gives action (callService host service) (Effect.Allowed action) := by
  cases service with
  | contractCall => exact givesCallContract host.ledger
  | log => exact givesBind givesPopBytes fun _ _ => givesPure trivial
  | getTime => exact givesNothing (givesPush _)
  | storageGet =>
    refine givesBind givesPopBytes fun key _ => givesGet fun f => ?_
    exact ⟨⟨rfl,rfl,rfl⟩,trivial⟩
  | storagePut =>
    refine givesBind givesPopBytes fun key _ => givesBind givesPop fun item _ => ?_
    cases item with
    | integer | byteString | buffer => exact givesPure trivial
    | _ => exact givesThrow trivial

theorem givesPerform (host : Host) (start : Nat) (action : Action) :
    Gives action (perform host start action) (Effect.Allowed action) := by
  cases action with
  | nothing => exact givesPure trivial
  | ret => exact givesPure rfl
  | push item => exact givesNothing (givesPush item)
  | jump offset => exact givesNothing (givesJump start offset)
  | jumpIf expected offset =>
    refine givesBind givesPop fun item _ => ?_
    split
    · exact givesNothing (givesJump start offset)
    · exact givesPure trivial
  | call offset => exact givesCallInternal start offset
  | abort => exact givesThrow trivial
  | assert =>
    refine givesBind givesPop fun item _ => ?_
    split
    · exact givesPure trivial
    · exact givesThrow trivial
  | throw => exact givesBind givesPop fun _ _ => givesThrow trivial
  | service code =>
    dsimp only [perform]
    cases Interop.ofCode? code with
    | none => exact givesThrow trivial
    | some service => exact givesCallService host service
  | drop => exact givesNothing (givesBind givesPop fun _ _ => givesPure trivial)
  | dup => exact givesBind givesPop fun item _ => givesBind (givesPush item) fun _ _ =>
      givesNothing (givesPush item)
  | swap => exact givesBind givesPop fun top _ => givesBind givesPop fun below _ =>
      givesBind (givesPush top) fun _ _ => givesNothing (givesPush below)
  | openStatics count => exact givesNothing (givesModify fun _ => ⟨rfl,rfl,rfl⟩)
  | openSlots localCount argumentCount =>
    exact givesBind (givesPopMany argumentCount) fun _ _ =>
      givesNothing (givesModify fun _ => ⟨rfl,rfl,rfl⟩)
  | load kind index => exact givesNothing (givesLoad kind index)
  | store kind index => exact givesNothing (givesStore kind index)
  | binary op =>
    refine givesBind givesPopInt fun right _ => givesBind givesPopInt fun left _ => ?_
    cases op.apply? left right with
    | none => exact givesBind (givesThrow (p := fun _ => True) trivial) fun _ _ => givesPure trivial
    | some item => exact givesNothing (givesPush item)
  | add delta =>
    refine givesBind givesPopInt fun i _ => ?_
    split
    · exact givesNothing (givesPush _)
    · exact givesBind (givesThrow (p := fun _ => True) trivial) fun _ _ => givesPure trivial
  | pack => exact givesNothing (givesPack host.room)
  | unsupported opcode => exact givesThrow trivial

end FrameM

namespace Engine

-- What running the top frame leads to, its frame apart where it is left.
inductive Ran (e : Engine) (f : Frame) (rest : List Frame) : Engine → Prop where
  | faulted {g : Frame} (kin : f.Kin g) (fault : Fault) :
      Ran e f rest ({ e with frames := g :: rest }.failWith fault)
  | left (leaves : f.Leaves) : Ran e f rest (e.leave f rest)
  | applied {g : Frame} (kin : f.Kin g) {effect : Effect} (lawful : effect.Lawful)
      (stays : effect ≠ .leave) : Ran e f rest (e.apply g rest effect)

theorem leaveFrom (e : Engine) (f : Frame) (rest : List Frame) (position : Nat) :
    e.leave { f with position } rest = e.leave f rest := by
  cases rest <;> rfl

theorem runFrameRan {e : Engine} {f : Frame} {rest : List Frame} (shape : e.frames = f :: rest) :
    Ran e f rest (e.runFrame f rest) := by
  unfold runFrame
  cases fetched : f.fetched with
  | ended => exact .left (.inl fetched)
  | invalid =>
    have out := @Ran.faulted e f rest f f.kinRefl (.invalidInstruction f.position)
    rwa [← shape] at out
  | instruction i length =>
    have given := FrameM.givesPerform e.host f.position i.action
      { f with position := f.position + length }
    unfold FrameM.GivesFrom at given
    dsimp only
    cases ran : FrameM.perform e.host f.position i.action
      { f with position := f.position + length } with
    | error fault g =>
      rw [ran] at given
      obtain ⟨⟨contract,script,entry⟩,_⟩ := given
      have kin : f.Kin g := ⟨contract,script,entry⟩
      exact .faulted kin fault
    | ok effect g =>
      rw [ran] at given
      obtain ⟨⟨contract,script,entry⟩,allowed⟩ := given
      have kin : f.Kin g := ⟨contract,script,entry⟩
      by_cases leaves : effect = .leave
      · subst leaves
        have returns : i.action = .ret := allowed
        have left : Ran e f rest (e.leave f rest) :=
          .left (.inr ⟨i,length,fetched,Instruction.returnOpcode returns⟩)
        rw [returns] at ran
        cases ran
        rwa [← leaveFrom e f rest (f.position + length)] at left
      · exact .applied kin (Effect.lawfulAllowed allowed) leaves

inductive Outcome (e : Engine) : Engine → Prop where
  | ended (finished : e.state.isTerminal = true) : Outcome e e
  | bare (alive : e.state.isTerminal = false) (none : e.frames = []) :
      Outcome e (e.setState .halted)
  | faulted (alive : e.state.isTerminal = false) {f g : Frame} {rest : List Frame}
      (shape : e.frames = f :: rest) (kin : f.Kin g) (fault : Fault) :
      Outcome e ({ e.payGas with frames := g :: rest }.failWith fault)
  | applied (alive : e.state.isTerminal = false) {f g : Frame} {rest : List Frame}
      (shape : e.frames = f :: rest) (kin : f.Kin g) (paid : (e.gas + 1 : Int) ≤ e.gasLimit)
      {effect : Effect} (lawful : effect.Lawful) : Outcome e (e.payGas.apply g rest effect)

theorem executeNextOutcome (e : Engine) : Outcome e e.executeNext := by
  cases ended : e.state.isTerminal with
  | true =>
    rw [executeNextOfTerminal ended]
    exact .ended ended
  | false =>
    cases shape : e.frames with
    | nil =>
      rw [executeNextUnframed ended shape]
      exact .bare ended shape
    | cons f rest =>
      by_cases short : e.gasLimit < e.payGas.gas
      · rw [executeNextShort ended shape short]
        have out := Outcome.faulted ended shape f.kinRefl (.outOfGas e.gasLimit)
        rwa [← shape] at out
      have paid : (e.gas + 1 : Int) ≤ e.gasLimit := by simpa [payGas] using short
      rw [executeNextFramed ended shape short]
      have ran := @runFrameRan e.payGas f rest shape
      generalize e.payGas.runFrame f rest = next at ran ⊢
      cases ran with
      | faulted kin fault => exact .faulted ended shape kin fault
      | left => exact @Outcome.applied e ended f f rest shape f.kinRefl paid .leave trivial
      | applied kin lawful => exact .applied ended shape kin paid lawful

end Engine

end ScriptDebugger
