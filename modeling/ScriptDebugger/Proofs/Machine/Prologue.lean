import Mathlib.Data.List.Basic
import ScriptDebugger.Proofs.Machine.Entering

/-! Prologues. A callee that begins by opening its slots takes its arguments from the stack it was
entered with, the first one from the top, and stands behind the instruction with them. Which calls
arrive at a prologue that succeeds is read off plain execution. -/
namespace ScriptDebugger

-- The frame of a callee before and behind a prologue.
structure Frame.Opened (f g : Frame) (localCount argumentCount : Nat) : Prop where
  position : g.position = f.position + 3
  locals : g.locals = some (List.replicate localCount .any)
  arguments : ∃ items, g.arguments = some items ∧ items.length = argumentCount ∧
    ∀ j < argumentCount, items[j]? = f.evaluation[j]?

namespace FrameM

variable {f g : Frame}

theorem popManyTakes {count : Nat} {items : List StackItem} (done : popMany count f = .ok items g) :
    Drops count f g ∧ items = f.evaluation.take count := by
  induction count generalizing f items with
  | zero =>
    cases done
    exact ⟨⟨Nat.zero_le _,rfl⟩,rfl⟩
  | succ count ih =>
    obtain ⟨item,between,popped,done⟩ := doneBind done
    obtain ⟨rest,after,taken,done⟩ := doneBind done
    cases done
    obtain ⟨onward,rfl⟩ := ih taken
    have both : Drops (count + 1) f g := Nat.add_comm 1 count ▸ dropsThen (popDrops popped) onward
    refine ⟨both,?_⟩
    cases held : f.evaluation with
    | nil => exact absurd both.held (by simp [held])
    | cons top below =>
      rw [popTop held] at popped
      cases popped
      rfl

theorem openSlotsDone {host : Host} {start localCount argumentCount length : Nat} {effect : Effect}
    (done : perform host start (.openSlots localCount argumentCount)
      { f with position := f.position + length } = .ok effect g) (three : length = 3) :
    effect = .nothing ∧ f.Opened g localCount argumentCount := by
  obtain ⟨items,between,taken,done⟩ := doneBind done
  cases done
  obtain ⟨⟨held,rfl⟩,rfl⟩ := popManyTakes taken
  subst three
  refine ⟨rfl,rfl,rfl,_,rfl,List.length_take_of_le held,fun j below => ?_⟩
  exact List.getElem?_take_of_lt below

end FrameM

namespace Engine

-- The instruction is a call, the callee begins with a prologue, and both succeed.
def EntersPrologue (e : Engine) : Prop :=
  ∃ i entry, e.next? = some i ∧ i.entry? = some entry ∧
    e.executeNext.next?.map Instruction.opcode = some .INITSLOT ∧
    e.executeNext.executeNext.state.isTerminal = false

theorem prologueOpens {e : Engine}
    (opens : e.next?.map Instruction.opcode = some .INITSLOT)
    (onward : e.executeNext.state.isTerminal = false) :
    ∃ f g rest localCount argumentCount, e.frames = f :: rest ∧ e.executeNext.frames = g :: rest ∧
      f.fetched = .instruction ⟨.INITSLOT,[localCount,argumentCount]⟩ 3 ∧
      f.Opened g localCount.toNat argumentCount.toNat := by
  obtain ⟨⟨opcode,operand⟩,here,rfl⟩ := Option.map_eq_some_iff.mp opens
  obtain ⟨f,rest,length,shape,fetched⟩ := headFetched here
  obtain ⟨fits,three,_⟩ := fetchedEncoded fetched
  obtain ⟨localCount,argumentCount,rfl⟩ : ∃ a b, operand = [a,b] := List.length_eq_two.mp fits
  obtain ⟨effect,g,ran,after⟩ := onwardPerformed shape fetched onward
  obtain ⟨rfl,opened⟩ := FrameM.openSlotsDone ran three
  subst three
  exact ⟨f,g,rest,localCount,argumentCount,shape,by rw [after]; rfl,fetched,opened⟩

-- `after` stands behind the prologue of the callee that the call at `e` entered.
structure Stepped (e after : Engine) (callee opened : Frame) (localCount argumentCount : UInt8) :
    Prop where
  entered : e.executeNext.frames.head? = some callee
  deeper : after.frames.length = e.frames.length + 1
  top : after.frames.head? = some opened
  prologue : callee.fetched = .instruction ⟨.INITSLOT,[localCount,argumentCount]⟩ 3
  opened : callee.Opened opened localCount.toNat argumentCount.toNat

theorem prologueEntered {e : Engine} (enters : e.EntersPrologue) :
    ∃ callee opened localCount argumentCount,
      e.Stepped e.executeNext.executeNext callee opened localCount argumentCount := by
  obtain ⟨i,entry,here,calls,opens,onward⟩ := enters
  obtain ⟨caller,callee,below,length,entering,_⟩ := callEnters here calls (aliveBefore onward)
  obtain ⟨f,g,rest,localCount,argumentCount,shape,after,fetched,opened⟩ :=
    prologueOpens opens onward
  have entered : e.executeNext.frames = callee :: caller.waiting length entry :: below := by
    rw [entering.after]
  obtain ⟨rfl,rfl⟩ := List.cons.inj (shape.symm.trans entered)
  refine ⟨f,g,localCount,argumentCount,by rw [entered]; rfl,?_,by rw [after]; rfl,fetched,opened⟩
  rw [after, entering.shape]
  rfl

end Engine

end ScriptDebugger
