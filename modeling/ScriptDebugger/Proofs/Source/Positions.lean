import ScriptDebugger.Proofs.Registry.Consistency

/-! What a dump says by the places of its lines alone. Of the instructions with one offset the last one
counts, and what a table holds there is read off that line and those before it: its own name, the
nearest line above that is no instruction, or the line directly above if that is an annotation. The
tables are filled in one pass, which carries what the lines so far say of the next instruction. -/
namespace ScriptDebugger

namespace DumpLine

def Known : DumpLine → Prop
  | .opcode _ mnemonic _ => ∃ op : Opcode, op.mnemonic = mnemonic
  | _ => True

-- What a line that is no instruction says of the instructions after it.
def context? : DumpLine → Option LineContext
  | .opcode .. => none
  | .source file line text => some (.source ⟨⟨file,line⟩,some text⟩)
  | .methodStart name => some (.method name)
  | .methodEnd _ => some .undefined

end DumpLine

namespace SourceMap

variable {β γ : Type}

def contextAbove (above : List DumpLine) : LineContext :=
  (above.reverse.findSome? DumpLine.context?).getD .undefined

def annotationAbove? (above : List DumpLine) : Option SourceLine := do
  (← (← above.getLast?).context?).source?

-- What the line at `i` enters in a table, if it is an instruction: `value` of the lines above it and of
-- its name, at its offset.
def entryAt? (value : List DumpLine → String → Option β) (lines : List DumpLine) (i : Nat) :
    Option (Nat × β) :=
  match lines[i]? with
  | some (.opcode offset mnemonic _) => (value (lines.take i) mnemonic).map (offset,·)
  | _ => none

def Entered (value : List DumpLine → String → Option β) (lines : List DumpLine) (offset : Nat)
    (entry : β) : Prop := ∃ i, entryAt? value lines i = some (offset,entry)

def LastEntered (value : List DumpLine → String → Option β) (lines : List DumpLine) (offset : Nat)
    (entry : β) : Prop :=
  ∃ i, entryAt? value lines i = some (offset,entry) ∧
    ∀ j, i < j → ∀ other, entryAt? value lines j ≠ some (offset,other)

-- Of the entries at one offset the table has the last one.
def Tabulates (value : List DumpLine → String → Option β) (lines : List DumpLine)
    (table : Nat → Option β) : Prop :=
  ∀ offset entry, table offset = some entry ↔ LastEntered value lines offset entry

def Gathers (value : List DumpLine → String → Option β) (part : β → γ) (lines : List DumpLine)
    (held : γ → Prop) : Prop :=
  ∀ x, held x ↔ ∃ offset entry, Entered value lines offset entry ∧ part entry = x

def startAbove (above : List DumpLine) (_ : String) : Option SourceLine := annotationAbove? above

structure ByPosition (lines : List DumpLine) (m : SourceMap) : Prop where
  known : ∀ line ∈ lines, line.Known
  opcodes : Tabulates (fun _ name => some name) lines fun offset =>
    (m.opcode? offset).map Opcode.mnemonic
  dense : Tabulates (fun above _ => some (contextAbove above)) lines fun offset => m.dense[offset]?
  keys : ∀ offset, offset ∈ m.dense ↔ offset ∈ m.opcodes
  lineStarts : Tabulates startAbove lines m.lineStart?
  locations : Gathers startAbove SourceLine.location lines (· ∈ m.locations)
  filenames : Gathers startAbove (fun line => line.location.file) lines (· ∈ m.filenames)

variable {value : List DumpLine → String → Option β} {lines : List DumpLine} {line : DumpLine}
  {offset : Nat} {entry : β} {i : Nat}

theorem entryEarlier (earlier : i < lines.length) :
    entryAt? value (lines ++ [line]) i = entryAt? value lines i := by
  unfold entryAt?
  rw [List.getElem?_append_left earlier, List.take_append_of_le_length (Nat.le_of_lt earlier)]

theorem entryBeyond (beyond : lines.length ≤ i) : entryAt? value lines i = none := by
  unfold entryAt?
  rw [List.getElem?_eq_none beyond]

theorem entryWithin {found : Nat × β} (held : entryAt? value lines i = some found) :
    i < lines.length := by
  by_contra beyond
  rw [entryBeyond (Nat.not_lt.mp beyond)] at held
  contradiction

-- What a line adds to the tables when it comes below `lines`.
def added? (value : List DumpLine → String → Option β) (lines : List DumpLine) :
    DumpLine → Option (Nat × β)
  | .opcode offset mnemonic _ => (value lines mnemonic).map (offset,·)
  | _ => none

theorem entryAdded : entryAt? value (lines ++ [line]) lines.length = added? value lines line := by
  unfold entryAt?
  rw [List.getElem?_concat_length, List.take_left]
  cases line <;> rfl

theorem enteredBelow : Entered value (lines ++ [line]) offset entry ↔
    Entered value lines offset entry ∨ added? value lines line = some (offset,entry) := by
  rw [← entryAdded]
  constructor
  · rintro ⟨i,held⟩
    rcases Nat.lt_or_ge i lines.length with earlier | later
    · rw [entryEarlier earlier] at held
      exact .inl ⟨i,held⟩
    · have within := entryWithin held
      rw [List.length_append, List.length_singleton] at within
      obtain rfl : i = lines.length := by omega
      exact .inr held
  · rintro (⟨i,held⟩ | held)
    · exact ⟨i,(entryEarlier (entryWithin held)).trans held⟩
    · exact ⟨lines.length,held⟩

theorem lastBelow : LastEntered value (lines ++ [line]) offset entry ↔
    added? value lines line = some (offset,entry) ∨
      (∀ other, added? value lines line ≠ some (offset,other)) ∧
        LastEntered value lines offset entry := by
  rw [← entryAdded]
  have beyond {j : Nat} (later : lines.length < j) : entryAt? value (lines ++ [line]) j = none :=
    entryBeyond (by rw [List.length_append, List.length_singleton]; exact later)
  constructor
  · rintro ⟨i,held,last⟩
    rcases Nat.lt_trichotomy i lines.length with earlier | rfl | later
    · rw [entryEarlier earlier] at held
      refine .inr ⟨last lines.length earlier,i,held,fun j after other same => ?_⟩
      exact last j after other ((entryEarlier (entryWithin same)).trans same)
    · exact .inl held
    · rw [beyond later] at held
      contradiction
  · rintro (held | ⟨free,i,held,last⟩)
    · refine ⟨lines.length,held,fun j later other => ?_⟩
      rw [beyond later]
      exact nofun
    · refine ⟨i,(entryEarlier (entryWithin held)).trans held,fun j after other => ?_⟩
      rcases Nat.lt_trichotomy j lines.length with earlier | rfl | later
      · rw [entryEarlier earlier]
        exact last j after other
      · exact free other
      · rw [beyond later]
        exact nofun

variable {table next : Nat → Option β} {part : β → γ} {held more : γ → Prop} {new? : Option β}
  {m : SourceMap}

theorem tabulatesBelow (adds : added? value lines line = new?.map (offset,·))
    (tabulates : Tabulates value lines table)
    (grown : ∀ place, next place = if offset = place then new?.or (table place) else table place) :
    Tabulates value (lines ++ [line]) next := by
  intro place other
  rw [lastBelow, adds, grown, ← tabulates place other]
  by_cases same : offset = place
  · cases new? <;> simp [same]
  · simp [same]

theorem gathersBelow (adds : added? value lines line = new?.map (offset,·))
    (gathers : Gathers value part lines held)
    (grown : ∀ x, more x ↔ (∃ entry ∈ new?, part entry = x) ∨ held x) :
    Gathers value part (lines ++ [line]) more := by
  intro x
  rw [grown x, gathers x, or_comm]
  simp only [enteredBelow, adds, or_and_right, exists_or]
  refine or_congr_right ⟨?_,?_⟩
  · rintro ⟨entry,rfl,same⟩
    exact ⟨offset,entry,rfl,same⟩
  · rintro ⟨place,entry,taken,same⟩
    cases new? <;> cases taken
    exact ⟨_,rfl,same⟩

theorem placedPassed (plain : line.context? ≠ none) (placed : ByPosition lines m) :
    ByPosition (lines ++ [line]) m := by
  have nothing {β : Type} {value : List DumpLine → String → Option β} :
      added? value lines line = Option.map (0,·) none := by
    cases line with
    | opcode => exact absurd rfl plain
    | _ => rfl
  have known : line.Known := by
    cases line with
    | opcode => exact absurd rfl plain
    | _ => trivial
  obtain ⟨before,opcodes,dense,keys,lineStarts,locations,filenames⟩ := placed
  refine ⟨?_,tabulatesBelow nothing opcodes ?_,tabulatesBelow nothing dense ?_,keys,
    tabulatesBelow nothing lineStarts ?_,gathersBelow nothing locations ?_,
    gathersBelow nothing filenames ?_⟩
  · simpa [or_imp, forall_and] using ⟨before,known⟩
  all_goals simp

theorem contextBelow (lines : List DumpLine) (line : DumpLine) :
    contextAbove (lines ++ [line]) = line.context?.getD (contextAbove lines) := by
  cases line <;> simp [contextAbove, DumpLine.context?, List.findSome?_cons]

theorem annotationBelow (lines : List DumpLine) (line : DumpLine) :
    annotationAbove? (lines ++ [line]) = line.context?.bind LineContext.source? := by
  simp [annotationAbove?]

-- What a builder has made of the lines so far.
structure Reads (lines : List DumpLine) (b : Builder) : Prop where
  placed : ByPosition lines b.map
  pending : b.pending = annotationAbove? lines
  context : b.context = contextAbove lines

theorem tabulatesNothing : Tabulates value [] fun _ => none :=
  fun _ _ => iff_of_false nofun (by rintro ⟨_,held,_⟩; contradiction)

theorem gathersNothing (empty : ∀ x, ¬ held x) : Gathers value part [] held :=
  fun x => iff_of_false (empty x) (by rintro ⟨_,_,⟨_,entered⟩,_⟩; contradiction)

theorem readsNothing : Reads [] {} := by
  refine ⟨⟨nofun,?_,?_,?_,?_,?_,?_⟩,rfl,rfl⟩
  · simpa [opcode?] using tabulatesNothing
  · simpa using tabulatesNothing
  · simp
  · have none : lineStart? {} = fun _ => none := by
      funext offset
      simp [lineStart?]
    exact none ▸ tabulatesNothing
  · exact gathersNothing (by simp)
  · exact gathersNothing (by simp)

theorem insertedAt (t : Std.ExtTreeMap Nat β) (offset place : Nat) (entry : β) :
    (t.insert offset entry)[place]? = if offset = place then some entry else t[place]? := by
  rw [Std.ExtTreeMap.getElem?_insert]
  simp only [Std.LawfulEqCmp.compare_eq_iff_eq]

structure Grown (b c : Builder) (offset : Nat) (op : Opcode) : Prop where
  opcodes : c.map.opcodes = b.map.opcodes.insert offset op
  dense : c.map.dense = b.map.dense.insert offset b.context
  lineStarts : ∀ place, c.map.lineStart? place =
    if offset = place then b.pending.or (b.map.lineStart? place) else b.map.lineStart? place
  locations : ∀ location, location ∈ c.map.locations ↔
    (∃ line ∈ b.pending, line.location = location) ∨ location ∈ b.map.locations
  filenames : ∀ file, file ∈ c.map.filenames ↔
    (∃ line ∈ b.pending, line.location.file = file) ∨ file ∈ b.map.filenames
  pending : c.pending = none
  context : c.context = b.context

theorem opcodeGrown (b : Builder) (offset : Nat) (op : Opcode) :
    Grown b (b.addOpcode offset op) offset op := by
  obtain ⟨map,pending,context⟩ := b
  cases pending with
  | none =>
    exact ⟨rfl,rfl,by simp [Builder.addOpcode, lineStart?],by simp [Builder.addOpcode],
      by simp [Builder.addOpcode],rfl,rfl⟩
  | some line =>
    exact ⟨rfl,rfl,by simp [Builder.addOpcode, lineStart?, insertedAt],
      by simp [Builder.addOpcode],by simp [Builder.addOpcode],rfl,rfl⟩

theorem readsOpcode {b : Builder} {op : Opcode} {operand : Option String} (reads : Reads lines b) :
    Reads (lines ++ [.opcode offset op.mnemonic operand]) (b.addOpcode offset op) := by
  obtain ⟨⟨known,opcodes,dense,keys,lineStarts,locations,filenames⟩,pending,context⟩ := reads
  have grown := opcodeGrown b offset op
  have starts : added? startAbove lines (.opcode offset op.mnemonic operand) =
      b.pending.map (offset,·) := by
    rw [pending]
    rfl
  refine ⟨⟨?_,?_,?_,?_,?_,?_,?_⟩,?_,?_⟩
  · simpa [or_imp, forall_and] using ⟨known,op,rfl⟩
  · refine @tabulatesBelow _ _ _ _ _ _ _ (some op.mnemonic) rfl opcodes fun place => ?_
    simp only [opcode?, grown.opcodes, insertedAt]
    split <;> rfl
  · refine @tabulatesBelow _ _ _ _ _ _ _ (some (contextAbove lines)) rfl dense fun place => ?_
    rw [grown.dense, insertedAt, context, Option.some_or]
  · simp [grown.dense, grown.opcodes, keys]
  · exact tabulatesBelow starts lineStarts grown.lineStarts
  · exact gathersBelow starts locations grown.locations
  · exact gathersBelow starts filenames grown.filenames
  · rw [grown.pending, annotationBelow]
    rfl
  · rw [grown.context, contextBelow, context]
    rfl

theorem readsPlain {b : Builder} {context : LineContext} (gives : line.context? = some context)
    (reads : Reads lines b) :
    Reads (lines ++ [line]) { b with pending := context.source?, context } := by
  refine ⟨placedPassed (by rw [gives]; nofun) reads.placed,?_,?_⟩
  · rw [annotationBelow, gives]
    rfl
  · rw [contextBelow, gives]
    rfl

theorem readsAdd {b : Builder} (reads : Reads lines b) (number : Nat) (line : DumpLine) :
    match b.add number line with
    | .ok c => line.Known ∧ Reads (lines ++ [line]) c
    | .error cause => ∃ offset mnemonic operand, line = .opcode offset mnemonic operand ∧
        (∀ op : Opcode, op.mnemonic ≠ mnemonic) ∧ cause = .unknownOpcode number mnemonic := by
  cases line with
  | source file number text => exact ⟨trivial,@readsPlain _ (.source file number text) b _ rfl reads⟩
  | methodStart name => exact ⟨trivial,@readsPlain _ (.methodStart name) b _ rfl reads⟩
  | methodEnd name => exact ⟨trivial,@readsPlain _ (.methodEnd name) b _ rfl reads⟩
  | opcode offset mnemonic operand =>
    unfold Builder.add
    dsimp only
    cases listed : Opcode.ofMnemonic? mnemonic with
    | none => exact ⟨offset,mnemonic,operand,rfl,Opcode.mnemonicUnlisted listed,rfl⟩
    | some op =>
      obtain rfl := Opcode.readMnemonicExact listed
      exact ⟨⟨op,rfl⟩,readsOpcode reads⟩

def readLine? (line : List Char) : Option DumpLine := DumpLine.parse? (String.ofList line)

-- The first line that names no opcode, in a text whose lines are counted from `first`.
def FirstUnknown (first : Nat) (text : List (List Char)) (cause : Error) : Prop :=
  ∃ before line after offset mnemonic operand, text = before ++ line :: after ∧
    readLine? line = some (.opcode offset mnemonic operand) ∧
    (∀ op : Opcode, op.mnemonic ≠ mnemonic) ∧
    (∀ earlier ∈ before, ∀ read ∈ readLine? earlier, read.Known) ∧
    cause = .unknownOpcode (first + before.length) mnemonic

theorem unknownLater {first : Nat} {line : List Char} {text : List (List Char)} {cause : Error}
    (unknown : FirstUnknown (first + 1) text cause) (known : ∀ read ∈ readLine? line, read.Known) :
    FirstUnknown first (line :: text) cause := by
  obtain ⟨before,last,after,offset,mnemonic,operand,rfl,read,missing,earlier,rfl⟩ := unknown
  refine ⟨line :: before,last,after,offset,mnemonic,operand,rfl,read,missing,?_,?_⟩
  · exact List.forall_mem_cons.mpr ⟨known,earlier⟩
  · rw [List.length_cons]
    congr 1
    omega

-- The pass over the lines of a text, which are counted from `number`.
def addLines (b : Builder) (number : Nat) : List (List Char) → Result Builder
  | [] => return b
  | line :: rest =>
    match readLine? line with
    | none => addLines b (number + 1) rest
    | some read => do addLines (← b.add number read) (number + 1) rest

theorem foldLines (b : Builder) (n : Nat) (text : List (List Char)) :
    ((text.zipIdx n).filterMap fun (line,index) =>
      (DumpLine.parse? (String.ofList line)).map (index + 1,·)).foldlM
        (fun (b : Builder) (number,line) => b.add number line) b = addLines b (n + 1) text := by
  induction text generalizing n b with
  | nil => rfl
  | cons head rest ih =>
    simp only [List.zipIdx_cons, List.filterMap_cons, addLines, readLine?]
    cases DumpLine.parse? (String.ofList head) with
    | none => exact ih b (n + 1)
    | some line =>
      simp only [Option.map_some, List.foldlM_cons]
      exact congrArg (b.add (n + 1) line >>= ·) (funext fun c => ih c (n + 1))

theorem buildLines (dump : String) :
    build dump = Builder.map <$> addLines {} 1 (dump.toList.splitOn '\n') := by
  rw [← foldLines]
  rfl

-- The induction is on the text, with what the lines before it have been read as.
theorem readsLines {text : List (List Char)} {number : Nat} {b : Builder} (reads : Reads lines b) :
    match addLines b number text with
    | .ok c => Reads (lines ++ text.filterMap readLine?) c
    | .error cause => FirstUnknown number text cause := by
  induction text generalizing number lines b with
  | nil =>
    change Reads (lines ++ []) b
    rwa [List.append_nil]
  | cons head rest ih =>
    rw [addLines, List.filterMap_cons]
    cases read : readLine? head with
    | none =>
      have onward := @ih lines (number + 1) b reads
      dsimp only
      split at onward
      · exact onward
      · exact unknownLater onward (by simp [read])
    | some line =>
      have added := readsAdd reads number line
      dsimp only [bind, Except.bind]
      cases next : b.add number line with
      | error cause =>
        rw [next] at added
        obtain ⟨offset,mnemonic,operand,rfl,missing,rfl⟩ := added
        exact ⟨[],head,rest,offset,mnemonic,operand,rfl,read,missing,nofun,rfl⟩
      | ok c =>
        rw [next] at added
        have onward := @ih (lines ++ [line]) (number + 1) c added.2
        dsimp only
        split at onward
        · rwa [List.append_assoc] at onward
        · exact unknownLater onward (by simp [read, added.1])

-- Told of any text: it is refused for the first of its lines that names no opcode, or there is none and
-- every table is what the places of the lines say.
theorem builtByPosition (dump : String) :
    let text := dump.toList.splitOn '\n'
    match build dump with
    | .ok m => ByPosition (text.filterMap readLine?) m
    | .error cause => FirstUnknown 1 text cause := by
  intro text
  have read := @readsLines [] text 1 {} readsNothing
  rw [buildLines]
  change match Builder.map <$> addLines {} 1 text with | .ok m => _ | .error cause => _
  cases out : addLines {} 1 text with
  | ok b =>
    rw [out] at read
    exact read.placed
  | error cause =>
    rw [out] at read
    exact read

-- The line that repeats the offset has no annotation above it and takes only the name.
example :
    let lines : List DumpLine :=
      [.source "a.cs" 1 "x",.opcode 0 "NOP" none,.opcode 0 "RET" none,.methodEnd "f"]
    (List.range 4).map (entryAt? (fun _ name => some name) lines) =
        [none,some (0,"NOP"),some (0,"RET"),none] ∧
      (List.range 4).map (entryAt? startAbove lines) =
        [none,some (0,⟨⟨"a.cs",1⟩,some "x"⟩),none,none] := by decide

end SourceMap

end ScriptDebugger
