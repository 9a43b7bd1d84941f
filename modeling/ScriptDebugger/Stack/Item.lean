import ScriptDebugger.Bytes.Base64
import ScriptDebugger.Bytes.Hex
import ScriptDebugger.Json

/-! Values on the stacks of the machine, and how they are shown. An iterator is known by its handle
alone; it yields its items in order, each time it is drained, or fails with a message. -/
namespace ScriptDebugger

inductive StackItem where
  | any
  | boolean (b : Bool)
  | integer (i : Int)
  | byteString (bytes : Bytes)
  | buffer (bytes : Bytes)
  | array (items : List StackItem)
  | struct (items : List StackItem)
  | map (entries : List (StackItem × StackItem))
  | pointer (position : Nat)
  | interop (name : String)
  | iterator (handle : Nat) (items : List StackItem) (failure : Option String)
  deriving Inhabited

namespace StackItem

def typeName : StackItem → String
  | .any => "Any"
  | .boolean _ => "Boolean"
  | .integer _ => "Integer"
  | .byteString _ => "ByteString"
  | .buffer _ => "Buffer"
  | .array _ => "Array"
  | .struct _ => "Struct"
  | .map _ => "Map"
  | .pointer _ => "Pointer"
  | .interop _ | .iterator .. => "InteropInterface"

def toBool : StackItem → Bool
  | .any => false
  | .boolean b => b
  | .integer i => i ≠ 0
  | .byteString bytes | .buffer bytes => bytes.any (· ≠ 0)
  | _ => true

def toInt? : StackItem → Option Int
  | .integer i => some i
  | .boolean b => some (if b then 1 else 0)
  | .byteString bytes | .buffer bytes =>
    if bytes.length ≤ 16 then some (Bytes.toInt128 bytes) else none
  | _ => none

def bytes? : StackItem → Option Bytes
  | .byteString bytes | .buffer bytes => some bytes
  | _ => none

mutual
def same : StackItem → StackItem → Bool
  | .any, .any => true
  | .boolean a, .boolean b => a = b
  | .integer a, .integer b => a = b
  | .byteString a, .byteString b => a = b
  | .buffer a, .buffer b => a = b
  | .array a, .array b => sameItems a b
  | .struct a, .struct b => sameItems a b
  | .map a, .map b => sameEntries a b
  | .pointer a, .pointer b => a = b
  | .interop a, .interop b => a = b
  | .iterator a _ _, .iterator b _ _ => a = b
  | _, _ => false
def sameItems : List StackItem → List StackItem → Bool
  | [], [] => true
  | a :: as, b :: bs => same a b && sameItems as bs
  | _, _ => false
def sameEntries : List (StackItem × StackItem) → List (StackItem × StackItem) → Bool
  | [], [] => true
  | (k, v) :: as, (l, w) :: bs => same k l && same v w && sameEntries as bs
  | _, _ => false
end

mutual
def text : StackItem → String
  | .any => "Any"
  | .boolean b => s!"Boolean({b})"
  | .integer i => s!"Integer({i})"
  | .byteString bytes => s!"ByteString(0x{Hex.encode bytes})"
  | .buffer bytes => s!"Buffer(0x{Hex.encode bytes})"
  | .array items => "Array([" ++ ", ".intercalate (texts items) ++ "])"
  | .struct items => "Struct([" ++ ", ".intercalate (texts items) ++ "])"
  | .map entries => "Map([" ++ ", ".intercalate (entryTexts entries) ++ "])"
  | .pointer position => s!"Pointer({position})"
  | .interop name => s!"InteropInterface({name})"
  | .iterator .. => "Iterator"
def texts : List StackItem → List String
  | [] => []
  | item :: rest => text item :: texts rest
def entryTexts : List (StackItem × StackItem) → List String
  | [] => []
  | (k, v) :: rest => ("(" ++ text k ++ ", " ++ text v ++ ")") :: entryTexts rest
end

def typedValue (type : String) (v : Json) : Json := .object [("type", .text type), ("value", v)]

mutual
/-- The item in JSON. Iterators are drained up to `max` items; the first that fails, from left to
right and outside in, fails the whole. -/
def toJson (max : Nat) : StackItem → Except String Json
  | .any => return .object [("type", .text "Any")]
  | .boolean b => return typedValue "Boolean" (.bool b)
  | .integer i => return typedValue "Integer" (.text (toString i))
  | .byteString bytes => return typedValue "ByteString" (.text (Base64.encode bytes))
  | .buffer bytes => return typedValue "Buffer" (.text (Base64.encode bytes))
  | .array items => return typedValue "Array" (.list (← itemsToJson max items))
  | .struct items => return typedValue "Struct" (.list (← itemsToJson max items))
  | .map entries => return typedValue "Map" (.list (← entriesToJson max entries))
  | .pointer position => return typedValue "Pointer" (.nat position)
  | .interop name => return .object [("interface", .text name), ("type", .text "InteropInterface")]
  | .iterator _ _ (some message) => throw message
  | .iterator _ items none => do
    let drained ← drainToJson max max items
    return .object [("interface", .text "IIterator"), ("iterator", .list drained),
      ("truncated", .bool (max < items.length)), ("type", .text "InteropInterface")]
def itemsToJson (max : Nat) : List StackItem → Except String (List Json)
  | [] => return []
  | item :: rest => return (← toJson max item) :: (← itemsToJson max rest)
def entriesToJson (max : Nat) : List (StackItem × StackItem) → Except String (List Json)
  | [] => return []
  | (k, v) :: rest =>
    return .object [("key", ← toJson max k), ("value", ← toJson max v)] ::
      (← entriesToJson max rest)
def drainToJson (max : Nat) : Nat → List StackItem → Except String (List Json)
  | 0, _ => return []
  | _, [] => return []
  | count + 1, item :: rest => return (← toJson max item) :: (← drainToJson max count rest)
end

end StackItem

end ScriptDebugger
