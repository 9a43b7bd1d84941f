import ScriptDebugger.Number.Numeral
import ScriptDebugger.Text.Blank

/-! Lines of source files. A location is a file name and a line number, ordered in that order; a
source line also shows its text, which is no part of what line it is. -/
namespace ScriptDebugger

structure SourceLocation where
  file : String
  line : Nat
  deriving DecidableEq, Repr, Inhabited

namespace SourceLocation

instance : Ord SourceLocation := ⟨compareLex (compareOn file) (compareOn line)⟩

instance : Std.TransOrd SourceLocation :=
  inferInstanceAs (Std.TransCmp (compareLex (compareOn file) (compareOn line)))

instance : Std.LawfulEqOrd SourceLocation where
  eq_of_compare {a b} h := by
    have both := Ordering.then_eq_eq.mp (h : (compare a.file b.file).then (compare a.line b.line) = .eq)
    have sameFile := Std.LawfulEqOrd.eq_of_compare both.1
    have sameLine := Std.LawfulEqOrd.eq_of_compare both.2
    cases a; cases b; cases sameFile; cases sameLine; rfl

def text (l : SourceLocation) : String := s!"{l.file}:{l.line}"

inductive ReadError where
  | noColon
  | line (cause : Numeral.ReadError)
  deriving DecidableEq, Repr

def splitLastColon (cs : List Char) : Option (List Char × List Char) :=
  match cs.reverse.dropWhile (· ≠ ':') with
  | [] => none
  | _ :: before => some (before.reverse, (cs.reverse.takeWhile (· ≠ ':')).reverse)

def parse (text : String) : Except ReadError SourceLocation :=
  match splitLastColon text.toList with
  | none => throw .noColon
  | some (file, line) => do
    let n ← (Numeral.readNat 32 (String.ofList (Text.trimChars line))).mapError .line
    return ⟨String.ofList (Text.trimChars file), n⟩

end SourceLocation

structure SourceLine where
  location : SourceLocation
  text : Option String := none
  deriving DecidableEq, Repr, Inhabited

namespace SourceLine

def SameLine (a b : SourceLine) : Prop := a.location = b.location

instance (a b : SourceLine) : Decidable (SameLine a b) := by unfold SameLine; infer_instance

instance : Ord SourceLine := ⟨fun a b => compare a.location b.location⟩

end SourceLine

end ScriptDebugger
