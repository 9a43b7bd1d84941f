import ScriptDebugger.Text.Utf8

/-! Files as a program reads them: a path has bytes, or a reason why it has none. A table of files
stands for a current directory with nothing else in it; it resolves paths part by part, as a file
system without links does. -/
namespace ScriptDebugger

inductive FileError where
  | notFound
  | notDirectory
  | isDirectory
  | nameTooLong
  | nulInName
  | notUtf8
  | other (reason : String)
  deriving DecidableEq, Repr

def FileError.message : FileError → String
  | .notFound => "No such file or directory (os error 2)"
  | .notDirectory => "Not a directory (os error 20)"
  | .isDirectory => "Is a directory (os error 21)"
  | .nameTooLong => "File name too long (os error 36)"
  | .nulInName => "file name contained an unexpected NUL byte"
  | .notUtf8 => "stream did not contain valid UTF-8"
  | .other reason => reason

abbrev Files := String → Except FileError Bytes

namespace Files

def readText (files : Files) (path : String) : Except FileError String := do
  match Utf8.decode? (← files path) with
  | some text => return text
  | none => throw .notUtf8

def isFile (files : Files) (path : String) : Bool := (files path).isOk

def pathLimit : Nat := 4095
def nameLimit : Nat := 255

def refusal? (path : String) : Option FileError :=
  if path.toList.contains '\x00' then some .nulInName
  else if path = "" then some .notFound
  else if pathLimit < path.utf8ByteSize then some .nameTooLong
  else none

def parts (path : String) : List (List Char) := path.toList.splitOn '/'

inductive Place where
  | directory (parents : List (List Char))
  | outside
  | file (bytes : Bytes)

def blankPart (part : List Char) : Bool := part = [] || part = ['.']

def isTooLong (name : List Char) : Bool := nameLimit < (Utf8.encode (String.ofList name)).length

abbrev Table := List (List (List Char) × Bytes)

def Table.ofList (files : List (String × Bytes)) : Table :=
  files.map fun (path, bytes) => ((parts path).filter (!blankPart ·), bytes)

def Table.enter (table : Table) (place : Place) (part : List Char) : Except FileError Place :=
  match place with
  | .file _ => throw .notDirectory
  | .outside =>
    if blankPart part || part = ['.', '.'] then return .outside
    else if isTooLong part then throw .nameTooLong
    else throw .notFound
  | .directory parents =>
    if blankPart part then return place
    else if part = ['.', '.'] then
      match parents with
      | [] => return .outside
      | _ :: outer => return .directory outer
    else if isTooLong part then throw .nameTooLong
    else
      let here := (part :: parents).reverse
      match table.lookup here with
      | some bytes => return .file bytes
      | none =>
        if table.any fun entry => here.isPrefixOf entry.1 then return .directory (part :: parents)
        else throw .notFound

def origin (path : String) : Place :=
  if path.toList.head? = some '/' then .outside else .directory []

def ofTable (table : Table) : Files := fun path =>
  match refusal? path with
  | some cause => throw cause
  | none => do
    match ← (parts path).foldlM table.enter (origin path) with
    | .file bytes => return bytes
    | _ => throw .isDirectory

end Files

end ScriptDebugger
