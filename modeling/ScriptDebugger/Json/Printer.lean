import ScriptDebugger.Json

/-! Indented JSON text: two blanks a level, one item or field a line, nothing inside an empty
list or object. -/
namespace ScriptDebugger.Json

def escape (c : Char) : List Char :=
  if c = '"' then ['\\', '"'] else if c = '\\' then ['\\', '\\']
  else if c = '\n' then ['\\', 'n'] else if c = '\r' then ['\\', 'r']
  else if c = '\t' then ['\\', 't'] else if c.toNat = 8 then ['\\', 'b']
  else if c.toNat = 12 then ['\\', 'f']
  else if c.toNat < 32 then
    ['\\', 'u', '0', '0', Nat.digitChar (c.toNat / 16), Nat.digitChar (c.toNat % 16)]
  else [c]

def quote (s : String) : String := String.ofList ('"' :: s.toList.flatMap escape ++ ['"'])

def indent (level : Nat) : String := String.ofList ('\n' :: List.replicate (2 * level) ' ')

mutual
def prettyAt (level : Nat) : Json → String
  | .null => "null"
  | .bool b => if b then "true" else "false"
  | .number n => n.text
  | .text s => quote s
  | .list [] => "[]"
  | .list items => "[" ++ ",".intercalate (prettyItems (level + 1) items) ++ indent level ++ "]"
  | .object [] => "\x7b\x7d"
  | .object fields =>
    "\x7b" ++ ",".intercalate (prettyFields (level + 1) fields) ++ indent level ++ "\x7d"
def prettyItems (level : Nat) : List Json → List String
  | [] => []
  | item :: rest => (indent level ++ prettyAt level item) :: prettyItems level rest
def prettyFields (level : Nat) : List (String × Json) → List String
  | [] => []
  | (key, v) :: rest =>
    (indent level ++ quote key ++ ": " ++ prettyAt level v) :: prettyFields level rest
end

def pretty (v : Json) : String := prettyAt 0 v

end ScriptDebugger.Json
