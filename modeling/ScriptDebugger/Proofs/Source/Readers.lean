import Mathlib.Data.List.TakeWhile
import ScriptDebugger.Proofs.Number.Decimal
import ScriptDebugger.Proofs.Text.Trimming
import ScriptDebugger.Source.DumpLine

/-! Readers of dump lines. Each takes a piece off the front, as long as what is behind the piece does
not go on with it; a file name goes on until the tail of an annotation can follow. The first
characters decide which reader takes a line at all, so no line suits two of them. -/
namespace ScriptDebugger.DumpLine

open Text

def Stops (p : Char → Bool) (cs : List Char) : Prop := ∀ c ∈ cs.head?, ¬ p c

theorem stopsAt {p : Char → Bool} {c : Char} (rest : List Char) (other : p c = false) :
    Stops p (c :: rest) := by
  rintro _ ⟨⟩
  exact Bool.eq_false_iff.mp other

theorem takenRun {p : Char → Bool} {run rest : List Char} (all : ∀ c ∈ run, p c)
    (stops : Stops p rest) :
    (run ++ rest).takeWhile p = run ∧ (run ++ rest).dropWhile p = rest := by
  rw [List.takeWhile_append_of_pos all, List.dropWhile_append_of_pos all]
  cases rest with
  | nil => simp
  | cons c rest => simp [stops c rfl]

theorem runTaken (p : Char → Bool) (cs : List Char) :
    ∃ run, cs = run ++ cs.dropWhile p ∧ cs.takeWhile p = run ∧ ∀ c ∈ run, p c :=
  ⟨cs.takeWhile p,List.takeWhile_append_dropWhile.symm,rfl,fun _ => List.mem_takeWhile_imp⟩

theorem afterTaken (start : String) (rest : List Char) :
    after? start (start.toList ++ rest) = some rest := by
  unfold after?
  rw [if_pos (List.isPrefixOf_iff_prefix.mpr (List.prefix_append _ _)), ← String.length_toList,
    List.drop_left]

theorem afterTakes {start : String} {cs rest : List Char} (taken : after? start cs = some rest) :
    cs = start.toList ++ rest := by
  unfold after? at taken
  split at taken
  · next begins =>
    obtain ⟨others,rfl⟩ := List.isPrefixOf_iff_prefix.mp begins
    cases taken
    rw [← String.length_toList, List.drop_left]
  · contradiction

theorem blanksTaken {gap rest : List Char} (some : gap ≠ []) (blank : Blank gap)
    (stops : Stops isBlank rest) : afterBlanks? (gap ++ rest) = .some rest := by
  cases gap with
  | nil => exact absurd rfl some
  | cons c gap =>
    have first : isBlank c = true := blank c List.mem_cons_self
    have left : trimLeft (c :: gap ++ rest) = rest := (takenRun blank stops).2
    unfold afterBlanks?
    rw [left, List.cons_append, List.head?_cons, Option.map_some, first]
    rfl

theorem spaceTaken {rest : List Char} (stops : Stops isBlank rest) :
    afterBlanks? (' ' :: rest) = some rest :=
  @blanksTaken [' '] rest (List.cons_ne_nil _ _) (by simp [Blank]; decide) stops

theorem blanksTake {cs rest : List Char} (taken : afterBlanks? cs = some rest) :
    ∃ gap, cs = gap ++ rest ∧ Blank gap ∧ gap ≠ [] := by
  unfold afterBlanks? at taken
  split at taken
  · next begins =>
    cases taken
    obtain ⟨gap,split,taken,blank⟩ := runTaken isBlank cs
    refine ⟨gap,split,blank,?_⟩
    rintro rfl
    cases cs with
    | nil => exact absurd begins Bool.false_ne_true
    | cons c cs =>
      have first : isBlank c = true := by simpa using begins
      simp [first] at taken
  · contradiction

theorem numberTaken (zeros n : Nat) {rest : List Char} (stops : Stops isDecimalDigit rest) :
    number? (Numeral.padded zeros n ++ rest) =
      some (if n < Nat.pow 2 32 then some n else none,rest) := by
  have digits := fun c member => digitIsDecimal (@Numeral.paddedDigits zeros n c member)
  obtain ⟨taken,left⟩ := takenRun digits stops
  unfold number?
  simp only [taken, left, Numeral.readPadded]
  rw [if_neg (by simpa using Numeral.paddedSome zeros n)]
  split
  · rfl
  · rfl

theorem numberTakes {cs rest : List Char} {n : Option Nat} (taken : number? cs = some (n,rest)) :
    ∃ digits, cs = digits ++ rest ∧ (∀ d ∈ digits, isDecimalDigit d) ∧ digits ≠ [] := by
  obtain ⟨digits,split,same,all⟩ := runTaken isDecimalDigit cs
  unfold number? at taken
  dsimp only at taken
  rw [same] at taken
  split at taken
  · contradiction
  · next some =>
    cases taken
    exact ⟨digits,split,all,by simpa using some⟩

theorem stopsPadded {p : Char → Bool} (zeros n : Nat) (rest : List Char)
    (other : ∀ c, c.isDigit → ¬ p c) : Stops p (Numeral.padded zeros n ++ rest) := by
  cases same : Numeral.padded zeros n with
  | nil => exact absurd same (Numeral.paddedSome zeros n)
  | cons c digits =>
    rintro _ ⟨⟩
    exact other c (@Numeral.paddedDigits zeros n c (by simp [same]))

theorem noLineFeedIff {cs : List Char} : noLineFeed cs = true ↔ '\n' ∉ cs := by
  simp [noLineFeed]

/-! The tail of an annotation, and where a file name ends -/

/-- Begins with what stands between the file name and the text of an annotation. -/
structure Annotates (cs gap between digits behind after : List Char) : Prop where
  text : cs = gap ++ ("line".toList ++ (between ++ (digits ++ (':' :: (behind ++ '"' :: after)))))
  blanks : Blank gap ∧ Blank between ∧ Blank behind
  some : gap ≠ [] ∧ between ≠ [] ∧ behind ≠ [] ∧ digits ≠ []
  number : ∀ d ∈ digits, isDecimalDigit d

def AnnotatesHere (cs : List Char) : Prop :=
  ∃ gap between digits behind after, Annotates cs gap between digits behind after

theorem tailTakes {cs : List Char} {read : Option Nat × String}
    (taken : annotationTail? cs = some read) : AnnotatesHere cs := by
  simp only [annotationTail?, bind, Option.bind_eq_some_iff] at taken
  obtain ⟨one,first,two,word,three,second,⟨line,four⟩,number,five,colon,six,third,text,quote,-⟩ :=
    taken
  obtain ⟨gap,rfl,blankGap,someGap⟩ := blanksTake first
  obtain rfl := afterTakes word
  obtain ⟨between,rfl,blankBetween,someBetween⟩ := blanksTake second
  obtain ⟨digits,rfl,all,someDigits⟩ := numberTakes number
  obtain rfl := afterTakes colon
  obtain ⟨behind,rfl,blankBehind,someBehind⟩ := blanksTake third
  obtain rfl := afterTakes quote
  exact ⟨gap,between,digits,behind,text,rfl,⟨blankGap,blankBetween,blankBehind⟩,
    ⟨someGap,someBetween,someBehind,someDigits⟩,all⟩

variable {run rest before more : List Char}

-- A run without the character that follows some part ends within that part.
theorem passesRun {x : Char} (apart : x ∉ run) (same : run ++ rest = before ++ x :: more) :
    ∃ left, before = run ++ left ∧ rest = left ++ x :: more := by
  rcases List.append_eq_append_iff.mp same with inside | ⟨beyond,shorter,onward⟩
  · exact inside
  · cases beyond with
    | nil => exact ⟨[],by simpa using shorter.symm,onward.symm⟩
    | cons c beyond =>
      cases onward
      simp [shorter] at apart

theorem passesGap (blank : Blank run) (next : rest.head? ≠ some 'l')
    (same : run ++ rest = before ++ ' ' :: 'l' :: more) :
    ∃ left, before = run ++ left ∧ rest = left ++ ' ' :: 'l' :: more := by
  rcases List.append_eq_append_iff.mp same with inside | ⟨beyond,shorter,onward⟩
  · exact inside
  · match beyond, onward with
    | [], onward => exact ⟨[],by simpa using shorter.symm,onward.symm⟩
    | [_], onward =>
      cases onward
      exact absurd rfl next
    | _ :: _ :: beyond, onward =>
      cases onward
      exact absurd (blank 'l' (by simp [shorter])) (by decide)

theorem passesFirst (blank : Blank run) (ends : Ends before) (same : run ++ rest = before ++ more) :
    ∃ left, before = run ++ left ∧ rest = left ++ more := by
  rcases List.append_eq_append_iff.mp same with inside | ⟨beyond,shorter,_⟩
  · exact inside
  · rw [shorter] at blank
    exact absurd (fun c member => blank c (List.mem_append_left _ member)) (endsVisible ends)

-- The last character before the part is no white space, so the part cannot lie across its end.
theorem annotatesBefore (ends : Ends before)
    (annotates : AnnotatesHere (before ++ ' ' :: 'l' :: more)) : AnnotatesHere before := by
  obtain ⟨gap,between,digits,behind,after,text,⟨blankGap,blankBetween,blankBehind⟩,some,number⟩ :=
    annotates
  have digit : (digits ++ (':' :: (behind ++ '"' :: after))).head? ≠ .some 'l' := by
    cases digits with
    | nil => exact absurd rfl some.2.2.2
    | cons d digits =>
      rintro ⟨⟩
      exact absurd (number 'l' List.mem_cons_self) (by decide)
  obtain ⟨one,first,text⟩ := passesFirst blankGap ends text.symm
  obtain ⟨two,second,text⟩ := @passesRun _ _ one _ ' ' (by decide) text
  obtain ⟨three,third,text⟩ := passesGap blankBetween digit text
  have apart : ' ' ∉ digits := fun member => absurd (number _ member) (by decide)
  obtain ⟨four,fourth,text⟩ := @passesRun _ _ three _ ' ' apart text
  obtain ⟨five,fifth,text⟩ := @passesRun [':'] _ four _ ' ' (by decide) text
  obtain ⟨six,sixth,text⟩ := passesGap blankBehind (by simp) text
  obtain ⟨seven,seventh,text⟩ := @passesRun ['"'] _ six _ ' ' (by decide) text
  subst first second third fourth fifth sixth seventh
  exact ⟨gap,between,digits,behind,seven,rfl,⟨blankGap,blankBetween,blankBehind⟩,some,number⟩

theorem tailRead (zeros line : Nat) {text : List Char} (oneLine : '\n' ∉ text) :
    annotationTail? (" line ".toList ++
      (Numeral.padded zeros line ++ (": \"".toList ++ (text ++ ['"'])))) =
      some (if line < Nat.pow 2 32 then some line else none,String.ofList text) := by
  have shape : " line ".toList ++
      (Numeral.padded zeros line ++ (": \"".toList ++ (text ++ ['"']))) =
      ' ' :: ("line".toList ++ (' ' :: (Numeral.padded zeros line ++
        (":".toList ++ (' ' :: ("\"".toList ++ (text ++ ['"']))))))) := rfl
  have word (rest : List Char) : afterBlanks? (' ' :: ("line".toList ++ rest)) = _ :=
    spaceTaken (stopsAt _ rfl)
  have digits (rest : List Char) : afterBlanks? (' ' :: (Numeral.padded zeros line ++ rest)) = _ :=
    spaceTaken (stopsPadded zeros line rest fun _ => digitPlain)
  have number (rest : List Char) : number? (Numeral.padded zeros line ++ (":".toList ++ rest)) = _ :=
    numberTaken zeros line (stopsAt _ rfl)
  have quote (rest : List Char) : afterBlanks? (' ' :: ("\"".toList ++ rest)) = _ :=
    spaceTaken (stopsAt _ rfl)
  rw [shape]
  simp only [annotationTail?, word, afterTaken, digits, number, quote, bind, Option.bind]
  rw [List.dropLast_concat, List.getLast?_concat, if_pos ⟨rfl,noLineFeedIff.mpr oneLine⟩]
  rfl

theorem fileFound {tail file seen : List Char} {read : Option Nat × String}
    (nonempty : file ≠ []) (oneLine : '\n' ∉ file) (found : annotationTail? tail = some read)
    (free : ∀ before after, file = before ++ after → after ≠ [] → before ≠ [] →
      annotationTail? (after ++ tail) = none) :
    annotationFrom? seen (file ++ tail) =
      some (read.1.map fun n => .source (String.ofList (seen ++ file)) n read.2) := by
  induction file generalizing seen with
  | nil => exact absurd rfl nonempty
  | cons c rest ih =>
    have plain : c ≠ '\n' := fun same => oneLine (same ▸ List.mem_cons_self)
    rw [List.cons_append, annotationFrom?, if_neg plain]
    cases rest with
    | nil => rw [List.nil_append, found]
    | cons d rest =>
      have none := free [c] (d :: rest) rfl (List.cons_ne_nil d rest) (List.cons_ne_nil c [])
      have later := @ih (seen ++ [c]) (List.cons_ne_nil d rest)
        (fun member => oneLine (List.mem_cons_of_mem c member))
        fun before after split some _ =>
          free (c :: before) after (by rw [split]; rfl) some (List.cons_ne_nil c before)
      rw [none, later, List.append_assoc]
      rfl

/-! Which lines a reader takes at all -/

theorem signNoInstruction {cs : List Char} (sign : cs.head? = some '#') : instruction? cs = none := by
  refine Option.eq_none_iff_forall_ne_some.mpr fun _ read => ?_
  simp only [instruction?, bind, Option.bind_eq_some_iff] at read
  obtain ⟨⟨offset,rest⟩,number,-⟩ := read
  obtain ⟨digits,rfl,all,some⟩ := numberTakes number
  cases digits with
  | nil => exact absurd rfl some
  | cons d digits =>
    cases sign
    exact absurd (all '#' List.mem_cons_self) (by decide)

theorem annotationBegins {cs : List Char} {line : DumpLine} (read : annotation? cs = some line) :
    ∃ behind more, cs = '#' :: behind ∧ afterBlanks? behind = some ('C' :: more) := by
  simp only [annotation?, bind, Option.bind_eq_some_iff] at read
  obtain ⟨behind,sign,rest,gap,more,word,-⟩ := read
  exact ⟨behind,_,afterTakes sign,gap.trans (congrArg some (afterTakes word))⟩

theorem markBegins {cs : List Char} {line : DumpLine} (read : mark? cs = some line) :
    ∃ behind more, cs = '#' :: behind ∧ afterBlanks? behind = some ('M' :: more) := by
  simp only [mark?, bind, Option.bind_eq_some_iff] at read
  obtain ⟨behind,sign,rest,gap,more,word,-⟩ := read
  exact ⟨behind,_,afterTakes sign,gap.trans (congrArg some (afterTakes word))⟩

theorem noSign {cs : List Char} (plain : cs.head? ≠ some '#') :
    annotation? cs = none ∧ mark? cs = none := by
  constructor
  · refine Option.eq_none_iff_forall_ne_some.mpr fun _ read => ?_
    obtain ⟨_,_,rfl,_⟩ := annotationBegins read
    exact plain rfl
  · refine Option.eq_none_iff_forall_ne_some.mpr fun _ read => ?_
    obtain ⟨_,_,rfl,_⟩ := markBegins read
    exact plain rfl

theorem codeNoMark {behind more : List Char} (code : afterBlanks? behind = some ('C' :: more)) :
    mark? ('#' :: behind) = none := by
  refine Option.eq_none_iff_forall_ne_some.mpr fun _ read => ?_
  obtain ⟨_,_,same,method⟩ := markBegins read
  cases same
  cases code.symm.trans method

theorem methodNoAnnotation {behind more : List Char}
    (method : afterBlanks? behind = some ('M' :: more)) : annotation? ('#' :: behind) = none := by
  refine Option.eq_none_iff_forall_ne_some.mpr fun _ read => ?_
  obtain ⟨_,_,same,code⟩ := annotationBegins read
  cases same
  cases code.symm.trans method

def Apart (one two : Option DumpLine) : Prop := one = none ∨ two = none

theorem readersApart (cs : List Char) :
    Apart (instruction? cs) (annotation? cs) ∧ Apart (instruction? cs) (mark? cs) ∧
      Apart (annotation? cs) (mark? cs) := by
  by_cases sign : cs.head? = some '#'
  · refine ⟨.inl (signNoInstruction sign),.inl (signNoInstruction sign),?_⟩
    cases read : annotation? cs with
    | none => exact .inl rfl
    | some line =>
      obtain ⟨_,_,rfl,code⟩ := annotationBegins read
      exact .inr (codeNoMark code)
  · obtain ⟨noCode,noMark⟩ := noSign sign
    exact ⟨.inr noCode,.inr noMark,.inl noCode⟩

end ScriptDebugger.DumpLine
