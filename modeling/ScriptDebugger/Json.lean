import ScriptDebugger.Number.Binary64

/-! Values of JSON. The keys of an object are kept in order, each once, so equal values print
alike. Numbers are whole 64-bit numbers, or else floating-point numbers. -/
namespace ScriptDebugger

namespace Json

inductive Number where
  | whole (n : Int)
  | float (x : Binary64)
  deriving DecidableEq, Repr

def Number.text : Number → String
  | .whole n => toString n
  | .float x => x.text

end Json

inductive Json where
  | null
  | bool (b : Bool)
  | number (n : Json.Number)
  | text (s : String)
  | list (items : List Json)
  | object (fields : List (String × Json))
  deriving Inhabited

namespace Json

def nat (n : Nat) : Json := .number (.whole n)
def int (i : Int) : Json := .number (.whole i)
def ofOption (f : α → Json) (x : Option α) : Json := x.elim .null f
def texts (xs : List String) : Json := .list (xs.map .text)

def setField (key : String) (v : Json) : List (String × Json) → List (String × Json)
  | [] => [(key, v)]
  | (k, w) :: rest =>
    if key < k then (key, v) :: (k, w) :: rest
    else if key = k then (key, v) :: rest
    else (k, w) :: setField key v rest

def ofFields (fields : List (String × Json)) : Json :=
  .object (fields.foldl (fun acc f => setField f.1 f.2 acc) [])

def field? (key : String) : Json → Option Json
  | .object fields => fields.lookup key
  | _ => none

def kind : Json → String
  | .null => "null"
  | .bool _ => "boolean"
  | .number _ => "number"
  | .text _ => "string"
  | .list _ => "array"
  | .object _ => "object"

end Json

end ScriptDebugger
