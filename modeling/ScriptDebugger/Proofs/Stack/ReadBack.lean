import Std.Data.String.ToInt
import ScriptDebugger.Report
import ScriptDebugger.Proofs.Bytes.Base64

/-! Items read back from what is shown of them. The type stands beside each value, and a value without
iterators is shown whole, so two items or stacks that are shown alike are equal; the limit, which only
cuts iterators, plays no part. -/
namespace ScriptDebugger.StackItem

/-- Holds no iterator, however deep. -/
inductive Plain : StackItem → Prop where
  | any : Plain .any
  | boolean (b : Bool) : Plain (.boolean b)
  | integer (i : Int) : Plain (.integer i)
  | byteString (bytes : Bytes) : Plain (.byteString bytes)
  | buffer (bytes : Bytes) : Plain (.buffer bytes)
  | array (items : List StackItem) (each : ∀ item ∈ items, Plain item) : Plain (.array items)
  | struct (items : List StackItem) (each : ∀ item ∈ items, Plain item) : Plain (.struct items)
  | map (entries : List (StackItem × StackItem)) (keys : ∀ entry ∈ entries, Plain entry.1)
      (values : ∀ entry ∈ entries, Plain entry.2) : Plain (.map entries)
  | pointer (position : Nat) : Plain (.pointer position)
  | interop (name : String) : Plain (.interop name)

def scalar? (type : String) (v : Json) : Option StackItem :=
  match type, v with
  | "Boolean", .bool b => some (.boolean b)
  | "Integer", .text s => s.toInt?.map .integer
  | "ByteString", .text s => (Base64.decode s).toOption.map .byteString
  | "Buffer", .text s => (Base64.decode s).toOption.map .buffer
  | "Pointer", .number (.whole n) => some (.pointer n.toNat)
  | _, _ => none

mutual
def read? : Json → Option StackItem
  | .object [("type", .text "Any")] => some .any
  | .object [("interface", .text name), ("type", .text "InteropInterface")] => some (.interop name)
  | .object [("type", .text "Array"), ("value", .list items)] => (readItems? items).map .array
  | .object [("type", .text "Struct"), ("value", .list items)] => (readItems? items).map .struct
  | .object [("type", .text "Map"), ("value", .list entries)] => (readEntries? entries).map .map
  | .object [("type", .text type), ("value", v)] => scalar? type v
  | _ => none
def readItems? : List Json → Option (List StackItem)
  | [] => some []
  | j :: rest => do return (← read? j) :: (← readItems? rest)
def readEntries? : List Json → Option (List (StackItem × StackItem))
  | [] => some []
  | .object [("key", k), ("value", v)] :: rest => do
    return ((← read? k),(← read? v)) :: (← readEntries? rest)
  | _ => none
end

def ReadBack (max : Nat) (item : StackItem) : Prop :=
  ∃ j, item.toJson max = .ok j ∧ read? j = some item

variable {max : Nat}

theorem itemsReadBack {items : List StackItem} (each : ∀ item ∈ items, ReadBack max item) :
    ∃ js, itemsToJson max items = .ok js ∧ readItems? js = some items := by
  induction items with
  | nil => exact ⟨[],rfl,rfl⟩
  | cons item rest ih =>
    obtain ⟨j,shown,back⟩ := each item List.mem_cons_self
    obtain ⟨js,shownRest,backRest⟩ :=
      ih fun other member => each other (List.mem_cons_of_mem item member)
    refine ⟨j :: js,?_,?_⟩
    · rw [itemsToJson, shown, shownRest]
      rfl
    · rw [readItems?, back, backRest]
      rfl

theorem entriesReadBack {entries : List (StackItem × StackItem)}
    (keys : ∀ entry ∈ entries, ReadBack max entry.1)
    (values : ∀ entry ∈ entries, ReadBack max entry.2) :
    ∃ js, entriesToJson max entries = .ok js ∧ readEntries? js = some entries := by
  induction entries with
  | nil => exact ⟨[],rfl,rfl⟩
  | cons entry rest ih =>
    obtain ⟨key,value⟩ := entry
    obtain ⟨k,shownKey,backKey⟩ := keys (key,value) List.mem_cons_self
    obtain ⟨v,shownValue,backValue⟩ := values (key,value) List.mem_cons_self
    obtain ⟨js,shownRest,backRest⟩ :=
      ih (fun other member => keys other (List.mem_cons_of_mem _ member))
        (fun other member => values other (List.mem_cons_of_mem _ member))
    refine ⟨.object [("key", k), ("value", v)] :: js,?_,?_⟩
    · rw [entriesToJson, shownKey, shownValue, shownRest]
      rfl
    · rw [readEntries?, backKey, backValue, backRest]
      rfl

theorem plainReadBack {item : StackItem} (plain : item.Plain) : ReadBack max item := by
  induction plain with
  | any => exact ⟨_,rfl,by simp [read?]⟩
  | boolean b => exact ⟨_,rfl,by simp [read?, typedValue, scalar?]⟩
  | integer i =>
    exact ⟨_,rfl,by simp [read?, typedValue, scalar?, Int.toInt?_repr]⟩
  | byteString bytes | buffer bytes =>
    exact ⟨_,rfl,by simp [read?, typedValue, scalar?, Base64.decodeEncode, Except.toOption]⟩
  | pointer position => exact ⟨_,rfl,by simp [read?, typedValue, scalar?, Json.nat]⟩
  | interop name => exact ⟨_,rfl,by simp [read?]⟩
  | array items each ih | struct items each ih =>
    obtain ⟨js,shown,back⟩ := itemsReadBack ih
    exact ⟨_,by rw [toJson, shown]; rfl,by simp [read?, typedValue, back]⟩
  | map entries keys values ihKeys ihValues =>
    obtain ⟨js,shown,back⟩ := entriesReadBack ihKeys ihValues
    exact ⟨_,by rw [toJson, shown]; rfl,by simp [read?, typedValue, back]⟩

theorem sameItemsSelf {items : List StackItem} (each : ∀ item ∈ items, item.same item = true) :
    sameItems items items = true := by
  induction items with
  | nil => rfl
  | cons item rest ih =>
    simp [sameItems, each item, ih fun other member => each other (List.mem_cons_of_mem item member)]

theorem sameEntriesSelf {entries : List (StackItem × StackItem)}
    (keys : ∀ entry ∈ entries, entry.1.same entry.1 = true)
    (values : ∀ entry ∈ entries, entry.2.same entry.2 = true) :
    sameEntries entries entries = true := by
  induction entries with
  | nil => rfl
  | cons entry rest ih =>
    have later := ih (fun other member => keys other (List.mem_cons_of_mem _ member))
      (fun other member => values other (List.mem_cons_of_mem _ member))
    simp [sameEntries, keys entry, values entry, later]

theorem sameSelf {item : StackItem} (plain : item.Plain) : item.same item = true := by
  induction plain with
  | array items each ih | struct items each ih => exact sameItemsSelf ih
  | map entries keys values ihKeys ihValues => exact sameEntriesSelf ihKeys ihValues
  | _ => simp [same]

theorem shownApart (max limit : Nat) :
    (∀ a b : StackItem, a.Plain → b.Plain →
      ∃ x y, a.toJson max = .ok x ∧ b.toJson limit = .ok y ∧
        (x = y → a = b ∧ a.same b = true)) ∧
    ∀ as bs : List StackItem, (∀ a ∈ as, a.Plain) → (∀ b ∈ bs, b.Plain) →
      ∃ xs ys, dumpStack as max = .ok xs ∧ dumpStack bs limit = .ok ys ∧
        (xs = ys → as = bs ∧ sameItems as bs = true) := by
  refine ⟨fun a b plainA plainB => ?_,fun as bs plainA plainB => ?_⟩
  · obtain ⟨x,shownA,backA⟩ := @plainReadBack max a plainA
    obtain ⟨y,shownB,backB⟩ := @plainReadBack limit b plainB
    refine ⟨x,y,shownA,shownB,fun same => ?_⟩
    rw [same, backB] at backA
    cases backA
    exact ⟨rfl,sameSelf plainA⟩
  · obtain ⟨xs,shownA,backA⟩ := itemsReadBack fun a member => @plainReadBack max a (plainA a member)
    obtain ⟨ys,shownB,backB⟩ := itemsReadBack fun b member => @plainReadBack limit b (plainB b member)
    refine ⟨xs,ys,shownA,shownB,fun same => ?_⟩
    rw [same, backB] at backA
    cases backA
    exact ⟨rfl,sameItemsSelf fun a member => sameSelf (plainA a member)⟩

end ScriptDebugger.StackItem
