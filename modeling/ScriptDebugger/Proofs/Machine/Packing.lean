import ScriptDebugger.Proofs.Machine.Code
import ScriptDebugger.Proofs.Machine.Distance

/-! The one instruction that the host may not survive. A pack asks in advance for the memory of its
items, so its count alone can be more than there is memory for; nothing else an engine does is cut
off. Main statement: it happens at a pack of more items than its frame holds and than there is memory
for, and at no other. -/
namespace ScriptDebugger

theorem Instruction.packAction {i : Instruction} : i.action = .pack ↔ i.opcode = .PACK := by
  obtain ⟨opcode,operand⟩ := i
  constructor
  · intro packs
    cases opcode <;> first | rfl | contradiction
  · rintro ⟨⟩
    rfl

-- The count on top is more than the items below it and than there is room for.
def Frame.Overfilled (f : Frame) (room count : Nat) : Prop :=
  ∃ (item : StackItem) (below : List StackItem), f.evaluation = item :: below ∧
    item.toInt? = some (count : Int) ∧ count < Nat.pow 2 64 ∧ below.length < count ∧ room < count

namespace FrameM

variable {f g : Frame} {room count : Nat}

-- What is no pack gives way to what comes after it, if that is cut off.
theorem cutOffBind {α β : Type} {m : FrameM α} {k : α → FrameM β} {p : α → Prop}
    (uncut : Gives .nothing m p) (failed : (m >>= k) f = .error (.cutOff count) g) :
    ∃ x between, m f = .ok x between ∧ k x between = .error (.cutOff count) g := by
  have given := uncut f
  simp only [GivesFrom, bind, EStateM.bind] at given failed
  cases ran : m f with
  | ok x between =>
    rw [ran] at failed
    exact ⟨x,between,rfl,failed⟩
  | error fault between =>
    rw [ran] at given failed
    cases failed
    exact absurd given.2 Action.noConfusion

theorem packCutOff :
    (∃ g, pack room f = .error (.cutOff count) g) ↔ f.Overfilled room count := by
  constructor
  · rintro ⟨g,failed⟩
    obtain ⟨n,_,counted,_⟩ := cutOffBind givesPopInt failed
    obtain ⟨item,below,held,read,_⟩ := popIntTop counted
    rw [packCounted room held read] at failed
    dsimp only at failed
    split at failed
    · cases failed
    · next word =>
      split at failed
      · next short =>
        cases failed
        have whole : (n.toNat : Int) = n := Int.toNat_of_nonneg (by omega)
        exact ⟨item,below,held,whole ▸ read,by omega,by omega,by omega⟩
      · obtain ⟨_,_,_,failed⟩ := cutOffBind (givesPopMany _) failed
        cases failed
  · rintro ⟨item,below,held,read,word,few,short⟩
    refine ⟨{ f with evaluation := below },?_⟩
    rw [packCounted room held read]
    dsimp only
    rw [if_neg (by omega), if_pos (by omega)]
    rfl

theorem performCutOff {host : Host} {start : Nat} {action : Action} :
    (∃ g, perform host start action f = .error (.cutOff count) g) ↔
      action = .pack ∧ f.Overfilled host.room count := by
  rw [← packCutOff]
  constructor
  · rintro ⟨g,failed⟩
    have given := givesPerform host start action f
    rw [GivesFrom, failed] at given
    obtain rfl : action = .pack := given.2
    refine ⟨rfl,?_⟩
    simp only [perform, bind, EStateM.bind] at failed
    cases ran : pack host.room f with
    | ok _ between =>
      rw [ran] at failed
      cases failed
    | error fault between =>
      rw [ran] at failed
      cases failed
      exact ⟨g,rfl⟩
  · rintro ⟨rfl,g,failed⟩
    refine ⟨g,?_⟩
    simp only [perform, bind, EStateM.bind, failed]

end FrameM

namespace Engine

-- What is next is a pack of more items than its frame holds and than there is memory for.
def Overpacks (e : Engine) : Prop :=
  ∃ (f : Frame) (i : Instruction) (length count : Nat), e.frames.head? = some f ∧
    f.fetched = .instruction i length ∧ i.opcode = .PACK ∧ f.Overfilled e.payGas.host.room count

variable {e : Engine} {f : Frame} {rest : List Frame}

theorem leaveFault (e : Engine) (f : Frame) (rest : List Frame) :
    (e.leave f rest).fault = e.fault := by
  cases rest <;> rfl

theorem applyFault (e : Engine) (f : Frame) (rest : List Frame) (effect : Effect) :
    (e.apply f rest effect).fault = e.fault := by
  cases effect with
  | leave => exact leaveFault e f rest
  | _ => rfl

theorem uncutOff {fault : Option Fault} (clean : fault = none) :
    ¬ ∃ count, fault = some (.cutOff count) := by
  rintro ⟨count,cut⟩
  rw [clean] at cut
  contradiction

theorem runFrameCutOff (clean : e.fault = none) :
    (e.runFrame f rest).CutOff ↔ ∃ (i : Instruction) (length count : Nat),
      f.fetched = .instruction i length ∧ i.opcode = .PACK ∧ f.Overfilled e.host.room count := by
  constructor
  · rintro ⟨count,cut⟩
    unfold runFrame at cut
    cases fetched : f.fetched with
    | ended =>
      rw [fetched] at cut
      exact absurd ⟨count,cut⟩ (uncutOff ((leaveFault e f rest).trans clean))
    | invalid =>
      rw [fetched] at cut
      cases cut
    | instruction i length =>
      rw [fetched] at cut
      dsimp only at cut
      cases ran : FrameM.perform e.host f.position i.action
        { f with position := f.position + length } with
      | ok effect g =>
        rw [ran] at cut
        exact absurd ⟨count,cut⟩ (uncutOff ((applyFault e g rest effect).trans clean))
      | error fault g =>
        rw [ran] at cut
        cases cut
        obtain ⟨packs,large⟩ := FrameM.performCutOff.mp ⟨g,ran⟩
        exact ⟨i,length,count,rfl,Instruction.packAction.mp packs,large⟩
  · rintro ⟨i,length,count,fetched,packs,large⟩
    have moved : { f with position := f.position + length }.Overfilled e.host.room count := large
    have cut : ∃ g, FrameM.perform e.host f.position i.action
        { f with position := f.position + length } = .error (.cutOff count) g :=
      FrameM.performCutOff.mpr ⟨Instruction.packAction.mpr packs,moved⟩
    obtain ⟨g,failed⟩ := cut
    rw [runFrameFailed fetched failed]
    exact ⟨count,rfl⟩

theorem executeNextCutOff (clean : e.fault = none) (alive : e.state.isTerminal = false) :
    e.executeNext.CutOff ↔ (e.gas + 1 : Int) ≤ e.gasLimit ∧ e.Overpacks := by
  cases shape : e.frames with
  | nil =>
    rw [executeNextUnframed alive shape]
    refine ⟨fun cut => absurd cut (uncutOff clean),?_⟩
    rintro ⟨_,f,_,_,_,top,_⟩
    rw [shape] at top
    contradiction
  | cons f rest =>
    by_cases short : e.gasLimit < e.payGas.gas
    · rw [executeNextShort alive shape short]
      constructor
      · rintro ⟨count,cut⟩
        cases cut
      · rintro ⟨paid,_⟩
        simp only [payGas] at short
        omega
    · rw [executeNextFramed alive shape short, @runFrameCutOff e.payGas f rest clean]
      have paid : (e.gas + 1 : Int) ≤ e.gasLimit := by
        simp only [payGas] at short
        omega
      constructor
      · rintro ⟨i,length,count,fetched,packs,large⟩
        exact ⟨paid,f,i,length,count,by rw [shape]; rfl,fetched,packs,large⟩
      · rintro ⟨_,g,i,length,count,top,rest⟩
        rw [shape] at top
        cases top
        exact ⟨i,length,count,rest⟩

-- The last of so many instructions is a pack that is too large.
def Overpacked (e : Engine) (n : Nat) : Prop :=
  ∃ m, n = m + 1 ∧ (executeNext^[m] e.awake).Overpacks

theorem awakeFault (e : Engine) : e.awake.fault = e.fault := by
  unfold awake
  split <;> rfl

theorem leadsCutOff {n : Nat} {after : Engine} (sound : e.Sound) (there : ¬ e.CutOff)
    (leads : Leads n e after) (cut : after.CutOff) : e.Overpacked n := by
  obtain ⟨reached,alive⟩ := leads
  rw [CutOff, ← awakeFault, reached] at cut
  cases n with
  | zero =>
    rw [Function.iterate_zero, id, awakeFault] at cut
    exact absurd cut there
  | succ m =>
    have before := alive m (Nat.lt_succ_self m)
    have clean := soundUnfaulted (soundIterate ((soundAwake e).mpr sound) m) before
    rw [Function.iterate_succ_apply'] at cut
    exact ⟨m,rfl,((executeNextCutOff clean before).mp cut).2⟩

end Engine

end ScriptDebugger
