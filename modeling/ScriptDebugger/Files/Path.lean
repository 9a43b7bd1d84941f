/-! Paths as texts: names between slashes. Slashes and single dots at the end of a path say nothing,
save that a path may begin with either. -/
namespace ScriptDebugger.Path

def trimEnd (parts : List (List Char)) : List (List Char) :=
  match parts with
  | [] => []
  | first :: rest => first :: (rest.reverse.dropWhile fun p => p = [] ∨ p = ['.']).reverse

def ofParts (parts : List (List Char)) : String :=
  if parts = [[]] then "/" else String.ofList (['/'].intercalate parts)

def split? (path : String) : Option (List (List Char) × List Char) :=
  match (trimEnd (path.toList.splitOn '/')).reverse with
  | [] => none
  | name :: parents =>
    if name = ['.', '.'] ∨ (parents.isEmpty ∧ (name = [] ∨ name = ['.'])) then none
    else some (trimEnd parents.reverse, name)

def withName (parents : List (List Char)) (name : List Char) : String :=
  if parents.isEmpty then String.ofList name
  else if parents = [[]] then String.ofList ('/' :: name)
  else ofParts (parents ++ [name])

def stem? (ending : String) (name : List Char) : Option (List Char) :=
  if ending.toList.isSuffixOf name then some (name.take (name.length - ending.length)) else none

def siblingDump? (path : String) : Option String := do
  let (parents, name) ← split? path
  let stem ← (stem? ".debug.json" name).or (stem? ".json" name)
  return withName parents (stem ++ ".nef.txt".toList)

end ScriptDebugger.Path
