import ScriptDebugger.CommandLine.Output
import ScriptDebugger.Proofs.Registry.Consistency

/-! Lines with code. A dump says of some offsets which source line starts there, of an offset it repeats
possibly more than once. The locations that breakpoints may be set on are those of all these lines,
while at each offset only the last line is found again: a location that has lost all its offsets to
later lines is accepted and never arrived at. -/
namespace ScriptDebugger

namespace SourceMap

-- The lines that start in a dump, in its order, with the offsets they start at.
def startsFrom : Option SourceLine → List (Nat × DumpLine) → List (Nat × SourceLine)
  | _, [] => []
  | pending, (_,.opcode offset _ _) :: rest =>
    (pending.map fun line => (offset,line)).toList ++ startsFrom none rest
  | _, (_,.source file line text) :: rest => startsFrom (some ⟨⟨file,line⟩,some text⟩) rest
  | _, (_,.methodStart _) :: rest | _, (_,.methodEnd _) :: rest => startsFrom none rest

def starts (dump : String) : List (Nat × SourceLine) := startsFrom none (recognised dump)

structure Collected (before after : SourceMap) (starts : List (Nat × SourceLine)) : Prop where
  lineStarts : after.lineStarts = before.lineStarts.insertMany starts
  locations : after.locations =
    before.locations.insertMany (starts.map fun start => start.2.location)

theorem collectedLines {lines : List (Nat × DumpLine)} {b c : Builder}
    (added : lines.foldlM (fun (b : Builder) (number,line) => b.add number line) b = .ok c) :
    Collected b.map c.map (startsFrom b.pending lines) := by
  induction lines generalizing b with
  | nil =>
    cases added
    exact ⟨by simp [startsFrom],by simp [startsFrom]⟩
  | cons head rest ih =>
    obtain ⟨number,line⟩ := head
    rw [List.foldlM_cons] at added
    obtain ⟨next,first,added⟩ := Registry.granted added
    have onward := ih added
    cases line with
    | source | methodStart | methodEnd =>
      cases first
      exact onward
    | opcode offset mnemonic operand =>
      unfold Builder.add at first
      dsimp only at first
      split at first
      · cases first
        unfold Builder.addOpcode at onward
        cases pending : b.pending with
        | none =>
          rw [pending] at onward
          exact ⟨onward.lineStarts,onward.locations⟩
        | some line =>
          rw [pending] at onward
          obtain ⟨lineStarts,locations⟩ := onward
          refine ⟨?_,?_⟩
          · rw [lineStarts]
            exact Std.ExtTreeMap.insertMany_cons.symm
          · rw [locations]
            exact Std.ExtTreeSet.insertMany_cons.symm
      · contradiction

inductive LastAt (offset : Nat) (line : SourceLine) : List (Nat × SourceLine) → Prop where
  | here {rest : List (Nat × SourceLine)} (last : ∀ later ∈ rest, later.1 ≠ offset) :
    LastAt offset line ((offset,line) :: rest)
  | later {start : Nat × SourceLine} {rest : List (Nat × SourceLine)}
      (among : LastAt offset line rest) : LastAt offset line (start :: rest)

theorem lastListed {offset : Nat} {line : SourceLine} {starts : List (Nat × SourceLine)}
    (last : LastAt offset line starts) : (offset,line) ∈ starts := by
  induction last with
  | here => exact .head _
  | later _ ih => exact .tail _ ih

theorem insertedLast (starts : List (Nat × SourceLine)) (m : Std.ExtTreeMap Nat SourceLine)
    (offset : Nat) (line : SourceLine) :
    (m.insertMany starts)[offset]? = some line ↔
      LastAt offset line starts ∨
        m[offset]? = some line ∧ ∀ start ∈ starts, start.1 ≠ offset := by
  induction starts generalizing m with
  | nil =>
    rw [Std.ExtTreeMap.insertMany_nil]
    exact ⟨fun held => .inr ⟨held,nofun⟩,fun either => (either.resolve_left nofun).1⟩
  | cons start rest ih =>
    obtain ⟨place,first⟩ := start
    rw [Std.ExtTreeMap.insertMany_cons, ih, Std.ExtTreeMap.getElem?_insert]
    simp only [Std.LawfulEqCmp.compare_eq_iff_eq, List.forall_mem_cons]
    constructor
    · rintro (among | ⟨held,free⟩)
      · exact .inl (.later among)
      · split at held
        · next same =>
          cases same
          cases held
          exact .inl (.here free)
        · next apart => exact .inr ⟨held,apart,free⟩
    · rintro (last | ⟨held,apart,free⟩)
      · cases last with
        | here free => exact .inr ⟨if_pos rfl,free⟩
        | later among => exact .inl among
      · exact .inr ⟨(if_neg apart).trans held,free⟩

-- The location of a line that starts somewhere in the dump.
def Annotated (dump : String) (location : SourceLocation) : Prop :=
  ∃ start ∈ starts dump, start.2.location = location

-- The location of a line that is the last one to start at some offset.
def Kept (dump : String) (location : SourceLocation) : Prop :=
  ∃ offset line, LastAt offset line (starts dump) ∧ line.location = location

theorem keptAnnotated {dump : String} {location : SourceLocation} (kept : Kept dump location) :
    Annotated dump location := by
  obtain ⟨offset,line,last,same⟩ := kept
  exact ⟨(offset,line),lastListed last,same⟩

-- Where no offset is repeated every line is the last one at its offset.
theorem lastOfDistinct {starts : List (Nat × SourceLine)} (distinct : (starts.map Prod.fst).Nodup)
    {start : Nat × SourceLine} (listed : start ∈ starts) : LastAt start.1 start.2 starts := by
  induction starts with
  | nil => contradiction
  | cons head rest ih =>
    rw [List.map_cons, List.nodup_cons] at distinct
    rcases List.mem_cons.mp listed with rfl | among
    · refine .here fun later follows same => distinct.1 ?_
      exact same ▸ List.mem_map_of_mem follows
    · exact .later (ih distinct.2 among)

structure Lines (m : SourceMap) (dump : String) : Prop where
  locations (location : SourceLocation) : location ∈ m.locations ↔ Annotated dump location
  lineStarts (offset : Nat) (line : SourceLine) :
    m.lineStart? offset = some line ↔ LastAt offset line (starts dump)

theorem linesBuilt {dump : String} {m : SourceMap} (built : build dump = .ok m) : m.Lines dump := by
  unfold build at built
  obtain ⟨b,added,same⟩ := Registry.granted built
  cases same
  obtain ⟨lineStarts,locations⟩ := collectedLines added
  refine ⟨fun location => ?_,fun offset line => ?_⟩
  · rw [locations]
    simp [Std.ExtTreeSet.mem_insertMany_list, Annotated, starts]
  · rw [lineStart?, lineStarts, insertedLast]
    simp [starts]

theorem linesKept {m : SourceMap} {dump : String} (lines : m.Lines dump) (location : SourceLocation) :
    (∃ offset line, m.lineStart? offset = some line ∧ line.location = location) ↔
      Kept dump location := by
  simp only [lines.lineStarts, Kept]

end SourceMap

open SourceMap (Annotated Kept)

theorem Profile.linesRead {contract : ContractHash} {metadata dump : String} {p : Profile}
    (read : Profile.ofTexts contract metadata dump = .ok p) : p.map.Lines dump := by
  obtain ⟨info,_,rest⟩ := Registry.granted read
  obtain ⟨map,built,made⟩ := Registry.granted rest
  cases made
  exact SourceMap.linesBuilt built

theorem Registry.sourceAccepted {r : Registry} {contract : ContractHash} {p : Profile}
    (known : r.profile? contract = some p) (locations : List SourceLocation) :
    (r.setSourceBreakpoints contract locations).isOk = true ↔
      ∀ location ∈ locations, location ∈ p.map.locations := by
  unfold setSourceBreakpoints
  rw [profileFound known]
  dsimp only [bind, Except.bind]
  cases missing : locations.find? fun location => !p.map.locations.contains location with
  | some location =>
    have listed := List.mem_of_find?_eq_some missing
    have outside := List.find?_some missing
    refine iff_of_false nofun fun all => ?_
    simp [Std.ExtTreeSet.mem_iff_contains.mp (all location listed)] at outside
  | none =>
    rw [List.find?_eq_none] at missing
    refine iff_of_true rfl fun location listed => ?_
    simpa using missing location listed

namespace CommandLine.CheckBreakpoints

theorem offsetsNone {p : Profile} {dump : String} (lines : p.map.Lines dump)
    (location : SourceLocation) : offsets p location = [] ↔ ¬ Kept dump location := by
  rw [← SourceMap.linesKept lines, offsets, List.filterMap_eq_nil_iff]
  constructor
  · rintro none ⟨offset,line,starts,same⟩
    have listed : (offset,line) ∈ p.map.lineStarts.toList :=
      Std.ExtTreeMap.mem_toList_iff_getElem?_eq_some.mpr starts
    have passed := none (offset,line) listed
    simp [same] at passed
  · rintro free ⟨offset,line⟩ listed
    have starts := Std.ExtTreeMap.mem_toList_iff_getElem?_eq_some.mp listed
    exact if_neg fun same => free ⟨offset,line,starts,same⟩

theorem failureNone {p : Profile} {dump : String} (lines : p.map.Lines dump)
    (locations : List SourceLocation) :
    failure p locations = none ↔ ∀ location ∈ locations, Annotated dump location := by
  have known : Registry.profile? { profiles := .ofList [(p.contract,p)] } p.contract = some p := by
    simp [Registry.profile?]
  have accepted := Registry.sourceAccepted known locations
  simp only [lines.locations] at accepted
  rw [← accepted]
  unfold failure
  dsimp only
  split
  · next granted =>
    rw [granted]
    exact iff_of_true rfl rfl
  · next refused =>
    rw [refused]
    exact iff_of_false (Option.some_ne_none _) Bool.false_ne_true

end CommandLine.CheckBreakpoints

theorem Registry.learntFrom {r : Registry} {contract : ContractHash} {metadata dump : String}
    {p : Profile} (read : Profile.ofTexts contract metadata dump = .ok p) :
    ∃ next, r.setDebugInfo contract metadata dump = .ok next ∧ next.profile? contract = some p := by
  refine ⟨{ r with
    profiles := r.profiles.insert contract p
    coverage := r.coverage.seed contract p.map.opcodes.keys },?_,
    Std.ExtTreeMap.getElem?_insert_self⟩
  unfold setDebugInfo
  rw [read]
  rfl

-- Told of any two texts. Which line is the last one at an offset decides where a breakpoint can be hit,
-- and neither the registry nor the check of breakpoints asks for it.
theorem acceptedWhereAnnotated (r : Registry) (contract : ContractHash) (metadata dump : String) :
    match Profile.ofTexts contract metadata dump with
    | .error cause => r.setDebugInfo contract metadata dump = .error cause
    | .ok p =>
      ∃ next, r.setDebugInfo contract metadata dump = .ok next ∧ next.profile? contract = some p ∧
        (∀ locations, (next.setSourceBreakpoints contract locations).isOk = true ↔
          ∀ location ∈ locations, Annotated dump location) ∧
        (∀ location, (∃ offset line, p.map.lineStart? offset = some line ∧
          line.location = location) ↔ Kept dump location) ∧
        (∀ location, Kept dump location → Annotated dump location) ∧
        (((SourceMap.starts dump).map Prod.fst).Nodup →
          ∀ location, Annotated dump location → Kept dump location) ∧
        (∀ location, CommandLine.CheckBreakpoints.offsets p location = [] ↔
          ¬ Kept dump location) ∧
        ∀ locations, CommandLine.CheckBreakpoints.failure p locations = none ↔
          ∀ location ∈ locations, Annotated dump location := by
  cases read : Profile.ofTexts contract metadata dump with
  | error cause =>
    unfold Registry.setDebugInfo
    rw [read]
    rfl
  | ok p =>
    have lines := Profile.linesRead read
    obtain ⟨next,learnt,known⟩ := @Registry.learntFrom r _ _ _ _ read
    refine ⟨next,learnt,known,fun locations => ?_,SourceMap.linesKept lines,
      fun _ => SourceMap.keptAnnotated,fun distinct location => ?_,
      CommandLine.CheckBreakpoints.offsetsNone lines,
      CommandLine.CheckBreakpoints.failureNone lines⟩
    · rw [Registry.sourceAccepted known]
      simp only [lines.locations]
    · rintro ⟨start,listed,same⟩
      exact ⟨start.1,start.2,SourceMap.lastOfDistinct distinct listed,same⟩

-- The second line takes the only offset of the first one.
theorem lostLineAccepted :
    let dump := "# Code a.cs line 1: \"x\"\n0000 NOP\n# Code a.cs line 2: \"y\"\n0000 NOP"
    let lost : SourceLocation := ⟨"a.cs",1⟩
    ∃ next p, ({} : Registry).setDebugInfo .zero "\x7b\x7d" dump = .ok next ∧
      next.profile? .zero = some p ∧ (next.setSourceBreakpoints .zero [lost]).isOk = true ∧
      (∀ offset line, p.map.lineStart? offset = some line → line.location ≠ lost) ∧
      CommandLine.CheckBreakpoints.locationLine false p lost = "✗ a.cs:1  no code generated" ∧
      CommandLine.CheckBreakpoints.failure p [lost] = none := by
  intro dump lost
  have accepted : (Profile.ofTexts .zero "\x7b\x7d" dump).isOk = true := by decide +kernel
  have starts : SourceMap.starts dump =
      [(0,⟨⟨"a.cs",1⟩,some "x"⟩),(0,⟨⟨"a.cs",2⟩,some "y"⟩)] := by decide +kernel
  have annotated : ∀ location ∈ [lost], Annotated dump location := by
    intro location listed
    rw [List.mem_singleton.mp listed, Annotated, starts]
    exact ⟨_,.head _,rfl⟩
  have gone : ¬ Kept dump lost := by
    rintro ⟨offset,line,last,same⟩
    rw [starts] at last
    cases last with
    | here free => exact absurd rfl (free _ (.head _))
    | later last =>
      cases last with
      | here => exact absurd same (by decide)
      | later last => contradiction
  cases read : Profile.ofTexts .zero "\x7b\x7d" dump with
  | error cause =>
    rw [read] at accepted
    contradiction
  | ok p =>
    have lines := Profile.linesRead read
    have none := (CommandLine.CheckBreakpoints.offsetsNone lines lost).mpr gone
    obtain ⟨next,learnt,known⟩ := @Registry.learntFrom {} _ _ _ _ read
    refine ⟨next,p,learnt,known,?_,fun offset line here same => ?_,?_,
      (CommandLine.CheckBreakpoints.failureNone lines [lost]).mpr annotated⟩
    · rw [Registry.sourceAccepted known]
      exact fun location listed => (lines.locations location).mpr (annotated location listed)
    · exact gone ((SourceMap.linesKept lines lost).mp ⟨offset,line,here,same⟩)
    · rw [CommandLine.CheckBreakpoints.locationLine, none]
      decide +kernel

end ScriptDebugger
