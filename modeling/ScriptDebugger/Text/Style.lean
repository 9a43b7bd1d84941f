/-! Text in the colours of a terminal. A painted text stands between a sequence that turns its style
on and one that turns all styles off; where the text itself turns styles off, its own is turned on
again. -/
namespace ScriptDebugger.Text

inductive Style where
  | heading
  | strong
  | faint
  | place
  | good
  | bad
  deriving DecidableEq, Repr

def Style.attributes : Style → String
  | .heading => "1;36"
  | .strong => "1"
  | .faint => "2"
  | .place => "33"
  | .good => "1;32"
  | .bad => "1;31"

def sequence (attributes : String) : List Char := '\x1b' :: '[' :: attributes.toList ++ ['m']

def reopened (again : List Char) : List Char → List Char
  | '\x1b' :: '[' :: '0' :: 'm' :: rest => sequence "0" ++ again ++ reopened again rest
  | c :: rest => c :: reopened again rest
  | [] => []

def paint (color : Bool) (style : Style) (s : String) : String :=
  if color then
    let on := sequence style.attributes
    String.ofList (on ++ reopened on s.toList ++ sequence "0")
  else s

end ScriptDebugger.Text
