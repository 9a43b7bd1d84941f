import ScriptDebugger.Proofs.Source.Readers

/-! Lines of a dump read back as they were written. A comment is not kept, and what trimming takes of it
is no loss. A file name must not contain what reads as the tail of an annotation, since it would end
there. A number of more than 32 bits makes the line none at all. -/
namespace ScriptDebugger.DumpLine

open Text

/-! The lines as written -/

/-- A capital, then capitals, digits and underscores. -/
def IsMnemonic (cs : List Char) : Prop :=
  (∃ c ∈ cs.head?, isMnemonicHead c) ∧ ∀ c ∈ cs, isMnemonicTail c

structure IsName (cs : List Char) : Prop where
  nonempty : cs ≠ []
  trimmed : Trimmed cs
  oneLine : '\n' ∉ cs

structure IsOperand (cs : List Char) : Prop where
  nonempty : cs ≠ []
  trimmed : Trimmed cs
  noComment : '#' ∉ cs

structure IsComment (cs : List Char) : Prop where
  visible : ¬ Blank cs
  oneLine : '\n' ∉ cs

/-- A name that does not end early, in a part that is read as the text of an annotation. -/
structure IsFile (cs : List Char) : Prop extends IsName cs where
  free : ∀ before after, cs = before ++ after → ¬ AnnotatesHere after

def operandText (operand : Option (List Char)) : List Char := operand.elim [] (' ' :: ·)

def commentText (comment : Option (List Char)) : List Char :=
  comment.elim [] fun cs => ' ' :: '#' :: ' ' :: cs

/-- Texts of a line: offsets and line numbers with any zeros in front, an instruction with any comment. -/
inductive Writes : DumpLine → List Char → Prop where
  | opcode {mnemonic : List Char} {operand comment : Option (List Char)} (zeros offset : Nat)
      (named : IsMnemonic mnemonic) (operands : ∀ cs ∈ operand, IsOperand cs)
      (comments : ∀ cs ∈ comment, IsComment cs) :
      Writes (.opcode offset (String.ofList mnemonic) (operand.map String.ofList))
        (Numeral.padded zeros offset ++
          (' ' :: (mnemonic ++ (operandText operand ++ commentText comment))))
  | source {file text : List Char} (zeros line : Nat) (named : IsFile file) (oneLine : '\n' ∉ text) :
      Writes (.source (String.ofList file) line (String.ofList text))
        ("# Code ".toList ++ (file ++ (" line ".toList ++
          (Numeral.padded zeros line ++ (": \"".toList ++ (text ++ ['"']))))))
  | methodStart {name : List Char} (named : IsName name) :
      Writes (.methodStart (String.ofList name)) ("# Method Start ".toList ++ name)
  | methodEnd {name : List Char} (named : IsName name) :
      Writes (.methodEnd (String.ofList name)) ("# Method End ".toList ++ name)

/-- The number it gives, if it gives one, is one of 32 bits. -/
def Fits : DumpLine → Prop
  | .opcode offset _ _ => offset < Nat.pow 2 32
  | .source _ line _ => line < Nat.pow 2 32
  | .methodStart _ | .methodEnd _ => True

instance : DecidablePred Fits
  | .opcode offset _ _ => inferInstanceAs (Decidable (offset < Nat.pow 2 32))
  | .source _ line _ => inferInstanceAs (Decidable (line < Nat.pow 2 32))
  | .methodStart _ | .methodEnd _ => inferInstanceAs (Decidable True)

/-- What is read of a line as written. -/
def kept? (line : DumpLine) : Option DumpLine := if line.Fits then some line else none

theorem markRead {name : List Char} (named : IsName name) :
    mark? ("# Method Start ".toList ++ name) = some (.methodStart (String.ofList name)) ∧
      mark? ("# Method End ".toList ++ name) = some (.methodEnd (String.ofList name)) := by
  obtain ⟨nonempty,⟨head,_⟩,oneLine⟩ := named
  have start : "# Method Start ".toList ++ name =
      "#".toList ++ (' ' :: ("Method".toList ++ (' ' :: ("Start".toList ++ (' ' :: name))))) := rfl
  have stop : "# Method End ".toList ++ name =
      "#".toList ++ (' ' :: ("Method".toList ++ (' ' :: ("End".toList ++ (' ' :: name))))) := rfl
  have first (rest : List Char) : afterBlanks? (' ' :: ("Method".toList ++ rest)) = _ :=
    spaceTaken (stopsAt _ rfl)
  have starts (rest : List Char) : afterBlanks? (' ' :: ("Start".toList ++ rest)) = _ :=
    spaceTaken (stopsAt _ rfl)
  have ends (rest : List Char) : afterBlanks? (' ' :: ("End".toList ++ rest)) = _ :=
    spaceTaken (stopsAt _ rfl)
  have other (rest : List Char) : after? "Start" ("End".toList ++ rest) = none := rfl
  have last := spaceTaken head
  rw [start, stop]
  simp only [mark?, afterTaken, first, starts, ends, last, other, bind, Option.bind, Option.map]
  constructor
  · simp [nonempty, noLineFeedIff, oneLine]
  · simp [nonempty, noLineFeedIff, oneLine]

theorem annotationRead {file text : List Char} (zeros line : Nat) (named : IsFile file)
    (oneLine : '\n' ∉ text) :
    annotation? ("# Code ".toList ++ (file ++ (" line ".toList ++
          (Numeral.padded zeros line ++ (": \"".toList ++ (text ++ ['"'])))))) =
      kept? (.source (String.ofList file) line (String.ofList text)) := by
  obtain ⟨⟨nonempty,⟨head,last⟩,fileLine⟩,free⟩ := named
  have found := tailRead zeros line oneLine
  generalize tailText : " line ".toList ++ _ = tail at found ⊢
  obtain ⟨more,spaced⟩ : ∃ more, tail = ' ' :: 'l' :: more := ⟨_,tailText.symm⟩
  have shape : "# Code ".toList ++ (file ++ tail) =
      "#".toList ++ (' ' :: ("Code".toList ++ (' ' :: (file ++ tail)))) := rfl
  have word (rest : List Char) : afterBlanks? (' ' :: ("Code".toList ++ rest)) = _ :=
    spaceTaken (stopsAt _ rfl)
  have visible : annotationPastBlanks? (file ++ tail) = none := by
    cases file with
    | nil => exact absurd rfl nonempty
    | cons c rest => exact if_neg (head c rfl)
  have once := @fileFound tail file [] _ nonempty fileLine found fun before after split some _ => by
    cases taken : annotationTail? (after ++ tail) with
    | none => rfl
    | some read =>
      have ends : Ends after := endsPlain some fun c ends =>
        last c (by rw [split, List.getLast?_append, ends]; rfl)
      rw [spaced] at taken
      exact absurd (annotatesBefore ends (tailTakes taken)) (free before after split)
  rw [shape]
  simp only [annotation?, afterTaken, word, bind, Option.bind]
  rw [annotationPastBlanks?, if_pos (by decide), visible, Option.orElse_none, once]
  change Option.map _ (if line < Nat.pow 2 32 then some line else none) =
    if line < Nat.pow 2 32 then _ else none
  split
  · rfl
  · rfl

/-- What of a comment stands behind the blank before it. -/
def remark (comment : Option (List Char)) : List Char := comment.elim [] ('#' :: ' ' :: ·)

theorem commentSplit (comment : Option (List Char)) :
    ∃ gap, commentText comment = gap ++ remark comment ∧ Blank gap := by
  cases comment with
  | none => exact ⟨[],rfl,nofun⟩
  | some cs => exact ⟨[' '],rfl,by simp [Blank]; decide⟩

theorem remarkRead {comment : Option (List Char)} (comments : ∀ cs ∈ comment, IsComment cs) :
    isComment (remark comment) = true := by
  cases comment with
  | none => rfl
  | some cs =>
    have blank : isBlank ' ' = true := by decide
    simp [remark, isComment, blank, noLineFeedIff, (comments cs rfl).oneLine]

theorem operandRead {operand : Option (List Char)} {gap : List Char}
    (operands : ∀ cs ∈ operand, IsOperand cs) (blank : Blank gap) :
    trimChars (operandText operand ++ gap) = operand.getD [] := by
  cases operand with
  | none =>
    have gone := @trimSurrounded gap [] blank nofun []
    rw [List.append_nil, List.append_nil] at gone
    exact gone
  | some cs =>
    have space : Blank [' '] := by simp [Blank]; decide
    exact (trimSurrounded space blank cs).trans (trimKept (operands cs rfl).trimmed)

theorem operandKept {operand : Option (List Char)} (operands : ∀ cs ∈ operand, IsOperand cs) :
    (if (operand.getD []).isEmpty then none else some (String.ofList (operand.getD []))) =
      operand.map String.ofList := by
  cases operand with
  | none => rfl
  | some cs => exact if_neg (by simpa using (operands cs rfl).nonempty)

theorem bodyPlain {operand : Option (List Char)} {gap : List Char}
    (operands : ∀ cs ∈ operand, IsOperand cs) (blank : Blank gap) :
    '#' ∉ operandText operand ++ gap := by
  have apart : '#' ∉ gap := fun member => absurd (blank '#' member) (by decide)
  cases operand with
  | none => simpa [operandText] using apart
  | some cs => simpa [operandText, apart] using (operands cs rfl).noComment

theorem remarkStops (comment : Option (List Char)) : Stops (· ≠ '#') (remark comment) := by
  cases comment with
  | none => nofun
  | some cs => exact stopsAt _ rfl

-- Nothing but white space can follow a mnemonic.
theorem behindMnemonic (operand comment : Option (List Char)) :
    ∀ c ∈ (operandText operand ++ commentText comment).head?, c = ' ' := by
  cases operand <;> cases comment <;> simp [operandText, commentText, eq_comm]

theorem bodyBegins (operand : Option (List Char)) {gap : List Char} (blank : Blank gap) :
    ((operandText operand ++ gap).head?.map isBlank).getD true = true := by
  cases operand with
  | some cs => exact show isBlank ' ' = true by decide
  | none =>
    cases gap with
    | nil => rfl
    | cons c gap => exact blank c List.mem_cons_self

theorem capitalPlain {c : Char} (capital : isMnemonicHead c = true) : ¬ isBlank c := by
  simp only [isMnemonicHead, Bool.and_eq_true, decide_eq_true_eq] at capital
  have low : 65 ≤ c.toNat := UInt32.le_iff_toNat_le.mp capital.1
  have high : c.toNat ≤ 90 := UInt32.le_iff_toNat_le.mp capital.2
  simp [isBlank, blankRanges]
  omega

theorem instructionRead {mnemonic : List Char} {operand comment : Option (List Char)}
    (zeros offset : Nat) (named : IsMnemonic mnemonic) (operands : ∀ cs ∈ operand, IsOperand cs)
    (comments : ∀ cs ∈ comment, IsComment cs) :
    instruction? (Numeral.padded zeros offset ++
          (' ' :: (mnemonic ++ (operandText operand ++ commentText comment)))) =
      kept? (.opcode offset (String.ofList mnemonic) (operand.map String.ofList)) := by
  obtain ⟨⟨c,first,capital⟩,all⟩ := named
  obtain ⟨gap,split,blank⟩ := commentSplit comment
  have number (rest : List Char) : number? (Numeral.padded zeros offset ++ (' ' :: rest)) = _ :=
    numberTaken zeros offset (stopsAt _ rfl)
  have spaced (rest : List Char) : afterBlanks? (' ' :: (mnemonic ++ rest)) = _ :=
    spaceTaken fun d head => by
      rw [List.head?_append, first] at head
      cases head
      exact capitalPlain capital
  have name := @takenRun isMnemonicTail mnemonic (operandText operand ++ commentText comment) all
    fun d head => by
      rw [behindMnemonic operand comment d head]
      decide
  have body := @takenRun (· ≠ '#') (operandText operand ++ gap) (remark comment)
    (fun d member => decide_eq_true fun same => bodyPlain operands blank (same ▸ member))
    (remarkStops comment)
  have begins : ((mnemonic.head?.map isMnemonicHead).getD false) = true := by
    rw [first]
    exact capital
  simp only [instruction?, number, spaced, name, bind, Option.bind, begins]
  rw [split, ← List.append_assoc]
  simp only [body, bodyBegins operand blank, remarkRead comments, operandRead operands blank,
    operandKept operands, Bool.not_true, Bool.false_eq_true, if_false]
  change _ = if offset < Nat.pow 2 32 then _ else none
  by_cases fits : offset < Nat.pow 2 32
  · rw [if_pos fits, if_pos fits]
    rfl
  · rw [if_neg fits, if_neg fits]

/-! Where a written line ends -/

theorem mnemonicEnds {mnemonic : List Char} (named : IsMnemonic mnemonic) : Ends mnemonic := by
  obtain ⟨⟨c,first,-⟩,all⟩ := named
  refine endsPlain (List.ne_nil_of_mem (List.mem_of_head? first)) fun d last => ?_
  have shape := all d (List.mem_of_getLast? last)
  simp only [isMnemonicTail, Bool.or_eq_true, decide_eq_true_eq] at shape
  rcases shape with (capital | digit) | rfl
  · exact capitalPlain capital
  · exact digitPlain digit
  · decide

theorem instructionEnds {mnemonic : List Char} {operand comment : Option (List Char)}
    (named : IsMnemonic mnemonic) (operands : ∀ cs ∈ operand, IsOperand cs)
    (comments : ∀ cs ∈ comment, Ends cs) :
    Ends (mnemonic ++ (operandText operand ++ commentText comment)) := by
  cases comment with
  | some cs => exact endsBehind _ (endsBehind _ (endsBehind " # ".toList (comments cs rfl)))
  | none =>
    cases operand with
    | some cs =>
      obtain ⟨nonempty,⟨_,last⟩,_⟩ := operands cs rfl
      simpa [operandText, commentText] using
        endsBehind mnemonic (endsBehind [' '] (endsPlain nonempty last))
    | none => simpa [operandText, commentText] using mnemonicEnds named

-- What trimming leaves of a comment is one.
theorem commentCore {comment : Option (List Char)} (comments : ∀ cs ∈ comment, IsComment cs) :
    ∃ core tail, commentText comment = commentText core ++ tail ∧ Blank tail ∧
      ∀ cs ∈ core, IsComment cs ∧ Ends cs := by
  cases comment with
  | none => exact ⟨none,[],rfl,nofun,nofun⟩
  | some cs =>
    obtain ⟨visible,oneLine⟩ := comments cs rfl
    obtain ⟨core,tail,rfl,blank,ends⟩ := visibleSplit visible
    refine ⟨some core,tail,rfl,blank,?_⟩
    rintro _ ⟨⟩
    exact ⟨⟨endsVisible ends,fun member => oneLine (List.mem_append_left tail member)⟩,ends⟩

theorem writtenCore {line : DumpLine} {text : List Char} (written : Writes line text) :
    ∃ core tail, text = core ++ tail ∧ Blank tail ∧ Trimmed core ∧ Writes line core := by
  have whole (head : Stops isBlank text) (ends : Ends text) :
      ∃ core tail, text = core ++ tail ∧ Blank tail ∧ Trimmed core ∧ Writes line core :=
    ⟨text,[],(List.append_nil text).symm,nofun,endsTrimmed head ends,written⟩
  cases written with
  | @opcode mnemonic operand comment zeros offset named operands comments =>
    obtain ⟨core,tail,split,blank,kept⟩ := commentCore comments
    refine ⟨Numeral.padded zeros offset ++
      (' ' :: (mnemonic ++ (operandText operand ++ commentText core))),tail,?_,blank,
      endsTrimmed (stopsPadded zeros offset _ fun _ => digitPlain) ?_,
      .opcode zeros offset named operands fun cs same => (kept cs same).1⟩
    · simp only [split, List.append_assoc, List.cons_append]
    · have ends := instructionEnds named operands fun cs same => (kept cs same).2
      exact endsBehind _ (endsBehind [' '] ends)
  | @source file words zeros n named oneLine =>
    have quote : Ends (words ++ ['"']) := endsBehind words ⟨'"',rfl,by decide⟩
    exact whole (stopsAt _ rfl)
      (endsBehind _ (endsBehind _ (endsBehind _ (endsBehind _ (endsBehind _ quote)))))
  | methodStart named | methodEnd named =>
    exact whole (stopsAt _ rfl) (endsBehind _ (endsPlain named.nonempty named.trimmed.2))

/-! Which reader takes a written line -/

theorem writtenRead {line : DumpLine} {text : List Char} (written : Writes line text) :
    ((instruction? text).orElse fun _ => annotation? text).orElse (fun _ => mark? text) =
      kept? line := by
  cases written with
  | @opcode mnemonic operand comment zeros offset named operands comments =>
    have plain := @stopsPadded (· = '#') zeros offset
      (' ' :: (mnemonic ++ (operandText operand ++ commentText comment))) fun c digit same => by
        cases of_decide_eq_true same
        contradiction
    obtain ⟨noCode,noMark⟩ := noSign fun first => plain '#' first rfl
    simp only [instructionRead zeros offset named operands comments, noCode, noMark,
      Option.orElse_eq_or, Option.or_none]
  | @source file words zeros n named oneLine =>
    have noMark (rest : List Char) : mark? ("# Code ".toList ++ rest) = none :=
      codeNoMark (spaceTaken (stopsAt _ rfl))
    have noInstruction (rest : List Char) : instruction? ("# Code ".toList ++ rest) = none :=
      signNoInstruction rfl
    simp only [noInstruction, annotationRead zeros n named oneLine, noMark,
      Option.orElse_eq_or, Option.none_or, Option.or_none]
  | @methodStart name named =>
    have noCode : annotation? ("# Method Start ".toList ++ name) = none :=
      methodNoAnnotation (spaceTaken (stopsAt _ rfl))
    have noInstruction : instruction? ("# Method Start ".toList ++ name) = none :=
      signNoInstruction rfl
    simp only [noInstruction, noCode, (markRead named).1, Option.orElse_eq_or, Option.none_or]
    rfl
  | @methodEnd name named =>
    have noCode : annotation? ("# Method End ".toList ++ name) = none :=
      methodNoAnnotation (spaceTaken (stopsAt _ rfl))
    have noInstruction : instruction? ("# Method End ".toList ++ name) = none :=
      signNoInstruction rfl
    simp only [noInstruction, noCode, (markRead named).2, Option.orElse_eq_or, Option.none_or]
    rfl

theorem readsBackLines :
    (∀ line text before after, Writes line text → Blank before → Blank after →
      parse? (String.ofList (before ++ text ++ after)) = kept? line) ∧
    ∀ cs, Apart (instruction? cs) (annotation? cs) ∧ Apart (instruction? cs) (mark? cs) ∧
      Apart (annotation? cs) (mark? cs) := by
  refine ⟨fun line text before after written front back => ?_,readersApart⟩
  obtain ⟨core,tail,rfl,gap,trimmed,written⟩ := writtenCore written
  have trims : trimChars (before ++ (core ++ tail) ++ after) = core := by
    rw [← List.append_assoc before, List.append_assoc (before ++ core),
      trimSurrounded front (blankBehind gap back), trimKept trimmed]
  unfold parse?
  rw [String.toList_ofList, trims]
  exact writtenRead written

end ScriptDebugger.DumpLine
