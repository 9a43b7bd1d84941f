import ScriptDebugger.Config
import ScriptDebugger.Error

/-! The settings file. Every setting is an integer, so the TOML texts that can be settings are
lines of one key and one integer, besides blank lines and comments; any other text is refused. A
key may be quoted, an integer be in base two, eight or sixteen, and no key may come twice. -/
namespace ScriptDebugger.Settings

def isSpace (c : Char) : Bool := c = ' ' || c = '\t'

def skip (cs : List Char) : List Char := cs.dropWhile isSpace

def isPlain (c : Char) : Bool := c = '\t' || (32 ≤ c.toNat && c.toNat ≠ 127)

def isKeyChar (c : Char) : Bool := c.isAlphanum || c = '_' || c = '-'

def digitValue? (c : Char) : Option Nat :=
  let n := c.toNat
  if 48 ≤ n ∧ n ≤ 57 then some (n - 48)
  else if 97 ≤ n ∧ n ≤ 102 then some (n - 87)
  else if 65 ≤ n ∧ n ≤ 70 then some (n - 55)
  else none

def charOfHex? (cs : List Char) : Option Char := do
  let n := (← cs.mapM digitValue?).foldl (fun n d => 16 * n + d) 0
  if n < 0xD800 ∨ (0xE000 ≤ n ∧ n < 0x110000) then some (Char.ofNat n) else none

def shortEscape? : Char → Option Char
  | 'b' => some '\x08'
  | 't' => some '\t'
  | 'n' => some '\n'
  | 'f' => some '\x0c'
  | 'r' => some '\r'
  | '"' => some '"'
  | '\\' => some '\\'
  | _ => none

def quotedKey? : List Char → List Char → Option (List Char × List Char)
  | acc, '"' :: rest => some (acc, rest)
  | acc, '\\' :: 'u' :: a :: b :: c :: d :: rest => do
    quotedKey? ((← charOfHex? [a, b, c, d]) :: acc) rest
  | acc, '\\' :: 'U' :: a :: b :: c :: d :: e :: f :: g :: h :: rest => do
    quotedKey? ((← charOfHex? [a, b, c, d, e, f, g, h]) :: acc) rest
  | acc, '\\' :: c :: rest => do quotedKey? ((← shortEscape? c) :: acc) rest
  | acc, c :: rest => if isPlain c then quotedKey? (c :: acc) rest else none
  | _, [] => none

def key? (cs : List Char) : Option (String × List Char) :=
  match cs with
  | '"' :: rest => (quotedKey? [] rest).map fun (key, rest) => (String.ofList key.reverse, rest)
  | '\'' :: rest =>
    let key := rest.takeWhile (· ≠ '\'')
    match rest.dropWhile (· ≠ '\'') with
    | _ :: rest => if key.all isPlain then some (String.ofList key, rest) else none
    | [] => none
  | cs =>
    let key := cs.takeWhile isKeyChar
    if key.isEmpty then none else some (String.ofList key, cs.dropWhile isKeyChar)

def digits? (base : Nat) : List Char → Option (List Nat)
  | [] => none
  | [c] => do
    let d ← digitValue? c
    if d < base then some [d] else none
  | c :: '_' :: rest => do
    let d ← digitValue? c
    if d < base then return d :: (← digits? base rest) else none
  | c :: rest => do
    let d ← digitValue? c
    if d < base then return d :: (← digits? base rest) else none

def natural? (base : Nat) (cs : List Char) : Option Nat :=
  (digits? base cs).map fun ds => ds.foldl (fun n d => base * n + d) 0

def decimal? (cs : List Char) : Option Nat :=
  if cs.head? = some '0' ∧ cs ≠ ['0'] then none else natural? 10 cs

def integer? (cs : List Char) : Option Int := do
  let i : Int ← match cs with
    | '+' :: rest => (decimal? rest).map Int.ofNat
    | '-' :: rest => (decimal? rest).map fun n => -(n : Int)
    | '0' :: 'x' :: rest => (natural? 16 rest).map Int.ofNat
    | '0' :: 'o' :: rest => (natural? 8 rest).map Int.ofNat
    | '0' :: 'b' :: rest => (natural? 2 rest).map Int.ofNat
    | cs => (decimal? cs).map Int.ofNat
  if (IntRange.signed 64).Contains i then some i else none

def isRemark (cs : List Char) : Bool :=
  match skip cs with
  | [] => true
  | '#' :: rest => rest.all isPlain
  | _ => false

def entry? (cs : List Char) : Option (String × Int) := do
  let (key, rest) ← key? (skip cs)
  let '=' :: rest := skip rest | none
  let rest := skip rest
  let isValueChar (c : Char) : Bool := !isSpace c && c ≠ '#'
  let i ← integer? (rest.takeWhile isValueChar)
  if isRemark (rest.dropWhile isValueChar) then some (key, i) else none

def lines (cs : List Char) : List (List Char) :=
  match (cs.splitOn '\n').reverse with
  | [] => []
  | last :: before =>
    (last :: before.map fun l => if l.getLast? = some '\r' then l.dropLast else l).reverse

def set? (key : String) (i : Int) (c : Config) : Option Config :=
  match key with
  | "max_iterator_result_items" =>
    if 0 ≤ i then some { c with maxIteratorItems := i.toNat } else none
  | "max_gas" => some { c with maxGas := i }
  | "default_timestamp" => if 0 ≤ i then some { c with defaultTimestamp := some i.toNat } else none
  | _ => none

def read? (text : String) : Option Config := do
  let cs := text.toList
  let cs := if cs.head? = some '\uFEFF' then cs.drop 1 else cs
  let entries ← ((lines cs).filter fun l => !isRemark l).mapM entry?
  if (entries.map Prod.fst).eraseDups.length < entries.length then none
  entries.foldlM (fun c (key, i) => set? key i c) {}

end ScriptDebugger.Settings

namespace ScriptDebugger.Config

def ofText (text : String) : Result Config :=
  match Settings.read? text with
  | some c => return c
  | none => throw (.config .malformed)

def load (files : Files) (path : String) : Result Config :=
  match files.readText path with
  | .ok text => ofText text
  | .error cause => throw (.config (.unreadable path cause))

def userPath (directory : String) : String := directory ++ "/neo-debugger/config.toml"

def discover (files : Files) (named environment directory : Option String) : Result Config :=
  match named.or environment with
  | some path => load files path
  | none =>
    match (directory.map userPath).filter files.isFile with
    | some path => load files path
    | none => return {}

end ScriptDebugger.Config
