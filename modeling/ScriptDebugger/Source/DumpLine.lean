import ScriptDebugger.Number.Numeral
import ScriptDebugger.Text.Blank
import ScriptDebugger.Text.DecimalDigit

/-! Lines of an instruction dump. A line is trimmed and then is one of three: an instruction with
its offset, an annotation with the source line of what follows, or a mark where a method starts
or ends. A dot in the notes below stands for any character but a line feed. -/
namespace ScriptDebugger

inductive DumpLine where
  | opcode (offset : Nat) (mnemonic : String) (operand : Option String)
  | source (file : String) (line : Nat) (text : String)
  | methodStart (name : String)
  | methodEnd (name : String)
  deriving DecidableEq, Repr

namespace DumpLine

open Text

def after? (start : String) (cs : List Char) : Option (List Char) :=
  if start.toList.isPrefixOf cs then some (cs.drop start.length) else none

def afterBlanks? (cs : List Char) : Option (List Char) :=
  if (cs.head?.map isBlank).getD false then some (trimLeft cs) else none

def number? (cs : List Char) : Option (Option Nat × List Char) :=
  let digits := cs.takeWhile isDecimalDigit
  if digits.isEmpty then none
  else some ((Numeral.readNat 32 (String.ofList digits)).toOption, cs.dropWhile isDecimalDigit)

def isMnemonicHead (c : Char) : Bool := 'A' ≤ c && c ≤ 'Z'

def isMnemonicTail (c : Char) : Bool := isMnemonicHead c || c.isDigit || c = '_'

def noLineFeed (cs : List Char) : Bool := !cs.contains '\n'

def isComment : List Char → Bool
  | [] => true
  | '#' :: c :: rest => isBlank c && noLineFeed rest
  | _ => false

def instruction? (cs : List Char) : Option DumpLine := do
  let (offset, rest) ← number? cs
  let rest ← afterBlanks? rest
  let mnemonic := rest.takeWhile isMnemonicTail
  if !(mnemonic.head?.map isMnemonicHead).getD false then none
  let rest := rest.dropWhile isMnemonicTail
  let body := rest.takeWhile (· ≠ '#')
  if !(body.head?.map isBlank).getD true then none
  if !isComment (rest.dropWhile (· ≠ '#')) then none
  let operand := trimChars body
  return .opcode (← offset) (String.ofList mnemonic)
    (if operand.isEmpty then none else some (String.ofList operand))

def annotationTail? (cs : List Char) : Option (Option Nat × String) := do
  let rest ← afterBlanks? cs
  let rest ← after? "line" rest
  let rest ← afterBlanks? rest
  let (line, rest) ← number? rest
  let rest ← after? ":" rest
  let rest ← afterBlanks? rest
  let rest ← after? "\"" rest
  let text := rest.dropLast
  if rest.getLast? = some '"' ∧ noLineFeed text then return (line, String.ofList text) else none

def annotationFrom? (before : List Char) : List Char → Option (Option DumpLine)
  | [] => none
  | c :: rest =>
    if c = '\n' then none
    else match annotationTail? rest with
      | some (line, text) =>
        some (line.map fun n => .source (String.ofList (before ++ [c])) n text)
      | none => annotationFrom? (before ++ [c]) rest

def annotationPastBlanks? : List Char → Option (Option DumpLine)
  | [] => none
  | c :: rest =>
    if isBlank c then (annotationPastBlanks? rest).orElse fun _ => annotationFrom? [] rest
    else none

def annotation? (cs : List Char) : Option DumpLine := do
  let rest ← after? "#" cs
  let rest ← after? "Code" (← afterBlanks? rest)
  (annotationPastBlanks? rest).join

def mark? (cs : List Char) : Option DumpLine := do
  let rest ← after? "#" cs
  let rest ← after? "Method" (← afterBlanks? rest)
  let rest ← afterBlanks? rest
  let (make, rest) ← match after? "Start" rest with
    | some rest => some (DumpLine.methodStart, rest)
    | none => (after? "End" rest).map fun rest => (DumpLine.methodEnd, rest)
  let name ← afterBlanks? rest
  if name.isEmpty ∨ !noLineFeed name then none
  return make (String.ofList name)

def parse? (line : String) : Option DumpLine :=
  let cs := trimChars line.toList
  ((instruction? cs).orElse fun _ => annotation? cs).orElse fun _ => mark? cs

end DumpLine

end ScriptDebugger
