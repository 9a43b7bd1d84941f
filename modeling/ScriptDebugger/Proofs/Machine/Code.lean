import ScriptDebugger.Proofs.Machine.Course
import ScriptDebugger.Proofs.Script.Fetching

/-! Straight code. Code turns one stack into another when every engine that comes upon it in its top
frame, with the gas it costs, runs through all of it and then differs in that gas, in the position
and in the top of the evaluation stack. Code put together turns one stack into the next, and what
lies below is not touched. -/
namespace ScriptDebugger

namespace FrameM

theorem popTop {f : Frame} {item : StackItem} {below : List StackItem}
    (held : f.evaluation = item :: below) :
    pop f = .ok item { f with evaluation := below } := by
  cases f
  cases held
  rfl

theorem popTopInt {f : Frame} {item : StackItem} {i : Int} {below : List StackItem}
    (held : f.evaluation = item :: below) (read : item.toInt? = some i) :
    popInt f = .ok i { f with evaluation := below } := by
  simp only [popInt, bind, EStateM.bind, popTop held, read]
  rfl

theorem popTopBytes {f : Frame} {item : StackItem} {bytes : Bytes} {below : List StackItem}
    (held : f.evaluation = item :: below) (read : item.bytes? = some bytes) :
    popBytes f = .ok bytes { f with evaluation := below } := by
  simp only [popBytes, bind, EStateM.bind, popTop held, read]
  rfl

theorem popTopMany {f : Frame} {items below : List StackItem}
    (held : f.evaluation = items ++ below) :
    popMany items.length f = .ok items { f with evaluation := below } := by
  induction items generalizing f with
  | nil =>
    rw [List.nil_append] at held
    rw [← held]
    rfl
  | cons item items ih =>
    rw [List.cons_append] at held
    have rest := @ih { f with evaluation := items ++ below } rfl
    simp only [List.length_cons, popMany, bind, EStateM.bind, popTop held, rest]
    rfl

theorem popEmpty {f : Frame} (empty : f.evaluation = []) : pop f = .error .stackUnderflow f := by
  cases f
  cases empty
  rfl

theorem popIntTop {f g : Frame} {n : Int} (done : popInt f = .ok n g) :
    ∃ (item : StackItem) (below : List StackItem), f.evaluation = item :: below ∧
      item.toInt? = some n ∧ g = { f with evaluation := below } := by
  cases held : f.evaluation with
  | nil =>
    simp only [popInt, bind, EStateM.bind, popEmpty held] at done
    contradiction
  | cons item below =>
    cases read : item.toInt? with
    | none =>
      simp only [popInt, bind, EStateM.bind, popTop held, read] at done
      contradiction
    | some i =>
      rw [popTopInt held read] at done
      cases done
      exact ⟨item,below,rfl,read,rfl⟩

theorem getFrame (f : Frame) : (get : FrameM Frame) f = .ok f f := rfl

theorem packCounted {f : Frame} {item : StackItem} {below : List StackItem} {n : Int} (room : Nat)
    (held : f.evaluation = item :: below) (read : item.toInt? = some n) :
    pack room f =
      let taken := { f with evaluation := below }
      if n < 0 ∨ (Nat.pow 2 64 : Int) ≤ n then .error (.typeMismatch "non-negative count") taken
      else if max room below.length < n.toNat then .error (.cutOff n.toNat) taken
      else (popMany n.toNat >>= fun items => push (.array items)) taken := by
  simp only [pack, bind, EStateM.bind, popTopInt held read, getFrame]
  split
  · rfl
  · split <;> rfl

theorem packTakes {f : Frame} {items below : List StackItem} (room : Nat)
    (bound : items.length < Nat.pow 2 64)
    (held : f.evaluation = .integer items.length :: (items ++ below)) :
    pack room f = .ok () { f with evaluation := .array items :: below } := by
  have taken := @popTopMany { f with evaluation := items ++ below } items below rfl
  have word : ¬ ((items.length : Int) < 0 ∨ (Nat.pow 2 64 : Int) ≤ items.length) := by omega
  have there : ¬ max room (items ++ below).length < items.length := by
    rw [List.length_append]
    omega
  rw [packCounted room held rfl]
  simp only [if_neg word, Int.toNat_natCast, if_neg there, bind, EStateM.bind, taken]
  rfl

theorem openSlotsTakes {f : Frame} {items below : List StackItem} (host : Host)
    (start localCount : Nat) (held : f.evaluation = items ++ below) :
    perform host start (.openSlots localCount items.length) f =
      .ok .nothing
        { f with
          evaluation := below
          locals := some (List.replicate localCount .any)
          arguments := some items } := by
  simp only [perform, bind, EStateM.bind, popTopMany held]
  rfl

end FrameM

namespace Engine

def past (e : Engine) (f : Frame) (rest : List Frame) (cost length : Nat)
    (evaluation : List StackItem) : Engine :=
  { e with
    gas := e.gas + cost
    frames := { f with position := f.position + length, evaluation } :: rest }

def Turns (code : Bytes) (cost : Nat) (before after : List StackItem) : Prop :=
  ∀ (e : Engine) (f : Frame) (rest : List Frame) (below : List StackItem),
    e.state.isTerminal = false → e.frames = f :: rest → f.evaluation = before ++ below →
    code <+: f.script.drop f.position → (e.gas + cost : Int) ≤ e.gasLimit →
    executeNext^[cost] e = e.past f rest cost code.length (after ++ below)

theorem turnsNone (items : List StackItem) : Turns [] 0 items items := by
  intro e f rest below alive shape held here enough
  simp only [past, ← held]
  rw [Function.iterate_zero, id, List.length_nil, Nat.add_zero, Nat.add_zero, ← shape]

theorem turnsThen {first second : Bytes} {m n : Nat} {before between after : List StackItem}
    (one : Turns first m before between) (two : Turns second n between after) :
    Turns (first ++ second) (m + n) before after := by
  intro e f rest below alive shape held here enough
  have start : first <+: f.script.drop f.position := (List.prefix_append first second).trans here
  have onward : second <+: f.script.drop (f.position + first.length) := codeOnward here
  have reached := one e f rest below alive shape held start (by omega)
  have next := two (e.past f rest m first.length (between ++ below)) _ rest below alive rfl rfl
    onward (by simp only [past]; omega)
  rw [Nat.add_comm m n, Function.iterate_add_apply, reached, next]
  simp only [past, List.length_append, Nat.add_assoc, Nat.add_comm n m]

theorem turnsOver {code : Bytes} {cost : Nat} {before after : List StackItem}
    (turns : Turns code cost before after) (kept : List StackItem) :
    Turns code cost (before ++ kept) (after ++ kept) := by
  intro e f rest below alive shape held here enough
  rw [List.append_assoc] at held ⊢
  exact turns e f rest (kept ++ below) alive shape held here enough

theorem turnsOnce {code : Bytes} {cost : Nat} {before a b : List StackItem}
    (one : Turns code cost before a) (two : Turns code cost before b) : a = b := by
  let f : Frame := { contract := .zero, script := code, entry := .script, evaluation := before }
  let e : Engine := { frames := [f], gasLimit := cost, ledger := .empty }
  have turned {after : List StackItem} (turns : Turns code cost before after) :
      executeNext^[cost] e = e.past f [] cost code.length (after ++ []) :=
    turns e f [] [] rfl rfl (List.append_nil _).symm List.prefix_rfl (by simp [e])
  have same := congrArg frames ((turned one).symm.trans (turned two))
  simpa [past] using same

theorem executeNextPaid {e : Engine} {f : Frame} {rest : List Frame}
    (alive : e.state.isTerminal = false) (shape : e.frames = f :: rest)
    (enough : e.gas + 1 ≤ e.gasLimit) : e.executeNext = e.payGas.runFrame f rest := by
  apply executeNextFramed alive shape
  simp only [payGas]
  omega

theorem runFrameDone {e : Engine} {f g : Frame} {rest : List Frame} {i : Instruction} {length : Nat}
    {effect : Effect} (fetched : f.fetched = .instruction i length)
    (performed : FrameM.perform e.host f.position i.action
      { f with position := f.position + length } = .ok effect g) :
    e.runFrame f rest = e.apply g rest effect := by
  simp only [runFrame, fetched, performed]

theorem runFrameFailed {e : Engine} {f g : Frame} {rest : List Frame} {i : Instruction}
    {length : Nat} {fault : Fault} (fetched : f.fetched = .instruction i length)
    (performed : FrameM.perform e.host f.position i.action
      { f with position := f.position + length } = .error fault g) :
    e.runFrame f rest = { e with frames := g :: rest }.failWith fault := by
  simp only [runFrame, fetched, performed]

theorem turnsInstruction {i : Instruction} {before after : List StackItem} (fits : i.Fits)
    (performs : ∀ (host : Host) (start : Nat) (f : Frame) (below : List StackItem),
      f.evaluation = before ++ below →
      FrameM.perform host start i.action f = .ok .nothing { f with evaluation := after ++ below }) :
    Turns i.encode 1 before after := by
  intro e f rest below alive shape held here enough
  have fetched : f.fetched = .instruction i i.encode.length := fetchEncoded fits here
  have performed := performs e.payGas.host f.position
    { f with position := f.position + i.encode.length } below held
  rw [Function.iterate_one, executeNextPaid alive shape (by omega), runFrameDone fetched performed]
  rfl

theorem turnsPush {i : Instruction} {item : StackItem} (fits : i.Fits)
    (pushes : i.action = .push item) : Turns i.encode 1 [] [item] := by
  apply turnsInstruction fits
  intro host start f below held
  rw [pushes, List.singleton_append, ← List.nil_append below, ← held]
  rfl

theorem turnsPack {items : List StackItem} (bound : items.length < Nat.pow 2 64) :
    Turns (Instruction.encode ⟨.PACK,[]⟩) 1 (.integer items.length :: items) [.array items] := by
  apply turnsInstruction (i := ⟨.PACK,[]⟩) rfl
  intro host start f below held
  have packed := FrameM.packTakes host.room bound held
  simp only [Instruction.action, FrameM.perform, bind, EStateM.bind, packed]
  rfl

end Engine

end ScriptDebugger
