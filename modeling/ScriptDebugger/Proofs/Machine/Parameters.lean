import ScriptDebugger.Proofs.Machine.Code
import ScriptDebugger.Proofs.Script.Emission

/-! What emitted parameters do when they are run. Each parameter means one item; its code, met in any
script and under any stack, puts just that item on top, an array with its items in order although
they are pushed from the last to the first. -/
namespace ScriptDebugger

namespace Parameter

mutual
def meaning : Parameter → StackItem
  | .any => .any
  | .boolean b => .boolean b
  | .integer i => .integer i
  | .byteArray bytes => .byteString bytes
  | .text s => .byteString (Utf8.encode s)
  | .hash h => .byteString h.bytes
  | .list items => .array (meanings items)
def meanings : List Parameter → List StackItem
  | [] => []
  | item :: rest => meaning item :: meanings rest
end

mutual
/-- How many instructions the parameter is emitted as; each costs one unit of gas. -/
def cost : Parameter → Nat
  | .list [] => 1
  | .list items => costs items + 1 + 1
  | _ => 1
def costs : List Parameter → Nat
  | [] => 0
  | item :: rest => costs rest + cost item
end

/-- Integers are of 128 bits. -/
inductive Ranged : Parameter → Prop where
  | any : Ranged .any
  | boolean (b : Bool) : Ranged (.boolean b)
  | integer (i : Int) (range : InInt128 i) : Ranged (.integer i)
  | byteArray (bytes : Bytes) : Ranged (.byteArray bytes)
  | text (s : String) : Ranged (.text s)
  | hash (h : ContractHash) : Ranged (.hash h)
  | list (items : List Parameter) (each : ∀ item ∈ items, Ranged item) : Ranged (.list items)

/-- Moreover, data have lengths of four bytes, and arrays have counts of eight. -/
inductive Emittable : Parameter → Prop where
  | any : Emittable .any
  | boolean (b : Bool) : Emittable (.boolean b)
  | integer (i : Int) (range : InInt128 i) : Emittable (.integer i)
  | byteArray (bytes : Bytes) (short : bytes.length < Bytes.count 4) : Emittable (.byteArray bytes)
  | text (s : String) (short : (Utf8.encode s).length < Bytes.count 4) : Emittable (.text s)
  | hash (h : ContractHash) : Emittable (.hash h)
  | list (items : List Parameter) (count : items.length < Nat.pow 2 64)
      (each : ∀ item ∈ items, Emittable item) : Emittable (.list items)

theorem meaningsMap (items : List Parameter) : meanings items = items.map meaning := by
  induction items with
  | nil => rfl
  | cons item items ih => rw [meanings, ih, List.map_cons]

end Parameter

namespace Emission

theorem dataLength (bytes : Bytes) : bytes.length < (data bytes).length := by
  have parts : (data bytes).length =
      (dataPush bytes.length).2 + bytes.length + 1 := by
    simp [data, opWith, Instruction.encode, Bytes.lengthOfNat]
  omega

theorem parameterNonempty (p : Parameter) : 0 < (parameter p).length := by
  cases p with
  | any => exact Nat.one_pos
  | boolean b => cases b <;> exact Nat.one_pos
  | integer i =>
    rw [parameter, int]
    split <;> exact Nat.succ_pos _
  | byteArray bytes => exact Nat.zero_lt_of_lt (dataLength bytes)
  | text s => exact Nat.zero_lt_of_lt (dataLength (Utf8.encode s))
  | hash h => exact Nat.zero_lt_of_lt (dataLength h.bytes)
  | list items =>
    cases items with
    | nil => exact Nat.one_pos
    | cons item items => simp [parameter, op, Instruction.encode]

theorem reversedLength (items : List Parameter) :
    items.length ≤ (reversed items).length ∧
      ∀ item ∈ items, (parameter item).length ≤ (reversed items).length := by
  induction items with
  | nil => exact ⟨Nat.le_refl 0,fun _ none => absurd none List.not_mem_nil⟩
  | cons first rest ih =>
    have own := parameterNonempty first
    have total : (reversed (first :: rest)).length =
        (reversed rest).length + (parameter first).length := by
      rw [reversed, List.length_append]
    refine ⟨by rw [List.length_cons]; omega,fun item member => ?_⟩
    rcases List.mem_cons.mp member with rfl | later
    · omega
    · have shorter := ih.2 item later
      omega

theorem emittableOfShort {p : Parameter} (ranged : p.Ranged)
    (short : (parameter p).length < Bytes.count 4) : p.Emittable := by
  induction ranged with
  | any => exact .any
  | boolean b => exact .boolean b
  | integer i range => exact .integer i range
  | byteArray bytes => exact .byteArray bytes (Nat.lt_trans (dataLength bytes) short)
  | text s => exact .text s (Nat.lt_trans (dataLength (Utf8.encode s)) short)
  | hash h => exact .hash h
  | list items each ih =>
    cases items with
    | nil => exact .list [] (by decide) fun _ none => absurd none List.not_mem_nil
    | cons first rest =>
      obtain ⟨counted,parts⟩ := reversedLength (first :: rest)
      have within : (reversed (first :: rest)).length < Bytes.count 4 := by
        simp only [parameter, List.length_append] at short
        omega
      have narrow : Bytes.count 4 < Nat.pow 2 64 := by decide
      refine .list _ (by omega) fun item member => ih item member ?_
      exact Nat.lt_of_le_of_lt (parts item member) within

end Emission

namespace Engine

theorem turnsPushes {code : Bytes} {item : StackItem} (pushes : Emission.Pushes code item) :
    Turns code 1 [] [item] := by
  obtain ⟨i,fits,rfl,action⟩ := pushes
  exact turnsPush fits action

theorem turnsReversed {items : List Parameter}
    (each : ∀ item ∈ items, Turns (Emission.parameter item) item.cost [] [item.meaning]) :
    Turns (Emission.reversed items) (Parameter.costs items) [] (Parameter.meanings items) := by
  induction items with
  | nil => exact turnsNone []
  | cons item items ih =>
    have later := ih fun other member => each other (List.mem_cons_of_mem item member)
    have first := each item List.mem_cons_self
    exact turnsThen later (turnsOver first (Parameter.meanings items))

theorem turnsParameter {p : Parameter} (emittable : p.Emittable) :
    Turns (Emission.parameter p) p.cost [] [p.meaning] := by
  induction emittable with
  | any => exact turnsPushes Emission.pushesAny
  | boolean b => exact turnsPushes (Emission.pushesBool b)
  | integer i range => exact turnsPushes (Emission.pushesInt range)
  | byteArray bytes short => exact turnsPushes (Emission.pushesData short)
  | text s short => exact turnsPushes (Emission.pushesData short)
  | hash h =>
    exact turnsPushes (Emission.pushesData (by rw [h.length_eq]; decide))
  | list items count each ih =>
    cases items with
    | nil => exact turnsPushes Emission.pushesEmpty
    | cons item items =>
      have word : InInt128 ((item :: items).length : Int) := by
        have wide : 2 * Nat.pow 2 64 ≤ Bytes.count 16 := by decide
        unfold InInt128 Bytes.Holds
        omega
      have size : (Parameter.meanings (item :: items)).length = (item :: items).length := by
        rw [Parameter.meaningsMap, List.length_map]
      have pushed := turnsReversed ih
      have counted := turnsOver (turnsPushes (Emission.pushesInt word))
        (Parameter.meanings (item :: items))
      have packed := @turnsPack (Parameter.meanings (item :: items)) (by omega)
      rw [size] at packed
      exact turnsThen (turnsThen pushed counted) packed

theorem parameterIsPushed {p : Parameter} {e : Engine} {f : Frame} {rest : List Frame}
    (ranged : p.Ranged) (short : f.script.length < Bytes.count 4)
    (alive : e.state.isTerminal = false) (shape : e.frames = f :: rest)
    (here : Emission.parameter p <+: f.script.drop f.position)
    (enough : (e.gas + p.cost : Int) ≤ e.gasLimit) :
    executeNext^[p.cost] e =
      { e with
        gas := e.gas + p.cost
        frames :=
          { f with
            position := f.position + (Emission.parameter p).length
            evaluation := p.meaning :: f.evaluation } :: rest } := by
  have within : (Emission.parameter p).length < Bytes.count 4 := by
    have part := here.length_le
    rw [List.length_drop] at part
    omega
  exact turnsParameter (Emission.emittableOfShort ranged within) e f rest f.evaluation alive shape
    rfl here enough

def nestedList : Parameter := .list [.integer (-200),.list [.byteArray [1,2]],.list []]

-- The code stands between two other instructions, and the stack is not empty.
def nestedFrame : Frame :=
  { contract := .zero
    script := Emission.op .NOP ++ Emission.parameter nestedList ++ Emission.op .RET
    position := 1
    entry := .script
    evaluation := [.boolean true] }

theorem nestedListIsPushed :
    (executeNext^[7] { frames := [nestedFrame], gasLimit := 7, ledger := .empty }).frames =
      [{ nestedFrame with
        position := 13
        evaluation :=
          [.array [.integer (-200),.array [.byteString [1,2]],.array []],.boolean true] }] := by
  have ranged : nestedList.Ranged := by
    refine .list _ fun item member => ?_
    simp only [List.mem_cons, List.not_mem_nil, or_false] at member
    rcases member with rfl | rfl | rfl
    · exact .integer _ (by decide)
    · exact .list _ fun item member => by
        rw [List.mem_singleton.mp member]
        exact .byteArray _
    · exact .list [] fun _ none => absurd none List.not_mem_nil
  exact congrArg frames (@parameterIsPushed nestedList
    { frames := [nestedFrame], gasLimit := 7, ledger := .empty } nestedFrame [] ranged
    (by decide) rfl rfl ⟨Emission.op .RET,rfl⟩ (by decide))

end Engine

end ScriptDebugger
