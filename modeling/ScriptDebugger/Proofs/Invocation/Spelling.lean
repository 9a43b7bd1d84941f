import ScriptDebugger.Invocation.Arguments
import ScriptDebugger.Proofs.Bytes.Base64
import ScriptDebugger.Proofs.Contract.HashText
import ScriptDebugger.Proofs.Machine.Parameters
import ScriptDebugger.Proofs.Number.Decimal
import ScriptDebugger.Proofs.Text.Trimming

/-! Arguments written in JSON. Each place of a tree of parameters is spelt as an envelope, or bare if it
has a shorthand; whichever is chosen where, reading gives the tree back. -/
namespace ScriptDebugger.Parameter

/-- How a place is spelt: in an envelope, there with a Boolean as a word, or bare. -/
inductive Spelling where
  | typed
  | worded
  | bare
  deriving DecidableEq, Repr

def envelope (type : String) (v : Json) : Json := .object [("type", .text type), ("value", v)]

def word (b : Bool) : String := if b then "true" else "false"

/-- Integers that a number of JSON holds. -/
def Numeric (i : Int) : Prop := (IntRange.signed 64).Contains i ∨ (IntRange.unsigned 64).Contains i

instance (i : Int) : Decidable (Numeric i) := by unfold Numeric; infer_instance

mutual
/-- A place is the way to it, by positions in lists. Where there is no shorthand the envelope stays. -/
def spelt (style : List Nat → Spelling) : Parameter → Json
  | .any => if style [] = .bare then .null else .object [("type", .text "Any")]
  | .boolean b =>
    match style [] with
    | .bare => .bool b
    | .typed => envelope "Boolean" (.bool b)
    | .worded => envelope "Boolean" (.text (word b))
  | .integer i =>
    if style [] = .bare ∧ Numeric i then .int i else envelope "Integer" (.text (toString i))
  | .text s => if style [] = .bare then .text s else envelope "String" (.text s)
  | .byteArray bytes => envelope "ByteArray" (.text (Base64.encode bytes))
  | .hash h => envelope "Hash160" (.text h.text)
  | .list items =>
    let inner : Json := .list (speltItems style 0 items)
    if style [] = .bare then inner else envelope "Array" inner
def speltItems (style : List Nat → Spelling) : Nat → List Parameter → List Json
  | _, [] => []
  | i, item :: rest => spelt (fun way => style (i :: way)) item :: speltItems style (i + 1) rest
end

theorem signedHolds {i : Int} (range : InInt128 i) : (IntRange.signed 128).Contains i := by
  obtain ⟨low,high⟩ := range
  have twice : (Bytes.count 16 : Int) = 2 * (Nat.pow 2 127 : Nat) := by decide
  constructor
  · change -((Nat.pow 2 127 : Nat) : Int) ≤ i
    omega
  · change i ≤ ((Nat.pow 2 127 : Nat) : Int) - 1
    omega

theorem integerPlain (i : Int) : ∀ c ∈ (toString i).toList, ¬ Text.isBlank c := by
  rw [Int.toString_eq_repr, Int.repr_eq_if]
  split
  · rw [Nat.toList_repr]
    exact fun c member => Text.digitPlain (Numeral.decimalDigits c member)
  · rw [String.toList_append, Nat.toList_repr]
    intro c member
    rcases List.mem_append.mp member with sign | digit
    · rw [List.mem_singleton.mp sign]
      decide
    · exact Text.digitPlain (Numeral.decimalDigits c digit)

theorem integerReadBack {i : Int} (range : InInt128 i) :
    readInteger (toString i) = .ok (.integer i) := by
  have trimmed : Text.trim (toString i) = toString i := by
    rw [Text.trim, Text.trimKept (Text.trimmedPlain (integerPlain i)), String.ofList_toList]
  rw [readInteger, trimmed, Numeral.readDecimal (by decide) (signedHolds range)]
  rfl

theorem envelopeRead {type : String} (v : Json) (single : type ≠ "Array") :
    ofJson (envelope type v) = ofTyped type v := by
  simp [ofJson, envelope, List.lookup_cons]

theorem arrayRead (items : List Json) :
    ofJson (envelope "Array" (.list items)) = ofJson (.list items) := by
  simp [ofJson, envelope, ofArrayField]

theorem itemsReadBack {items : List Parameter} {style : List Nat → Spelling} {i : Nat}
    (each : ∀ item ∈ items, ∀ style, ofJson (item.spelt style) = .ok item) :
    ofItems (speltItems style i items) = .ok items := by
  induction items generalizing i with
  | nil => rfl
  | cons item rest ih =>
    have later := ih (i := i + 1) fun other member => each other (List.mem_cons_of_mem item member)
    rw [speltItems, ofItems, each item List.mem_cons_self, later]
    rfl

theorem speltReadBack {p : Parameter} (ranged : p.Ranged) (style : List Nat → Spelling) :
    ofJson (p.spelt style) = .ok p := by
  induction ranged generalizing style with
  | any =>
    rw [spelt]
    split
    · rfl
    · rfl
  | boolean b =>
    rw [spelt]
    split
    · rfl
    · rw [envelopeRead _ (by decide)]
      rfl
    · rw [envelopeRead _ (by decide)]
      cases b with
      | false => rfl
      | true => rfl
  | integer i range =>
    rw [spelt]
    split
    · rw [Json.int, ofJson]
      exact integerReadBack range
    · rw [envelopeRead _ (by decide), ofTyped]
      exact integerReadBack range
  | byteArray bytes =>
    rw [spelt, envelopeRead _ (by decide)]
    simp only [ofTyped, Base64.decodeEncode]
    rfl
  | text s =>
    rw [spelt]
    split
    · rfl
    · rw [envelopeRead _ (by decide)]
      rfl
  | hash h =>
    rw [spelt, envelopeRead _ (by decide)]
    simp only [ofTyped, ContractHash.read, ContractHash.textReadBack]
    rfl
  | list items each ih =>
    have inner : ofJson (.list (speltItems style 0 items)) = .ok (.list items) := by
      rw [ofJson, itemsReadBack ih]
      rfl
    rw [spelt]
    split
    · exact inner
    · exact (arrayRead _).trans inner

def mixed : List Nat → Spelling
  | [1] | [1, 1] | [2] => .bare
  | [1, 0] => .worded
  | _ => .typed

theorem mixedListReadBack :
    ofJson (envelope "Array" (.list
        [envelope "Integer" (.text "7"),.list [envelope "Boolean" (.text "true"),.int (-8)],
          envelope "ByteArray" (.text "AQI=")])) =
      .ok (.list [.integer 7,.list [.boolean true,.integer (-8)],.byteArray [1,2]]) := by
  have ranged : Ranged (.list [.integer 7,.list [.boolean true,.integer (-8)],.byteArray [1,2]]) := by
    refine .list _ fun item member => ?_
    simp only [List.mem_cons, List.not_mem_nil, or_false] at member
    rcases member with rfl | rfl | rfl
    · exact .integer _ (by decide)
    · refine .list _ fun item member => ?_
      simp only [List.mem_cons, List.not_mem_nil, or_false] at member
      rcases member with rfl | rfl
      · exact .boolean _
      · exact .integer _ (by decide)
    · exact .byteArray _
  have seven : "7" = toString (7 : Int) := by decide
  have bytes : "AQI=" = Base64.encode [1,2] := by decide +kernel
  rw [seven, bytes]
  exact speltReadBack ranged mixed

end ScriptDebugger.Parameter
