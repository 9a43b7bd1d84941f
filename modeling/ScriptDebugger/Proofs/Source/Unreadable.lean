import ScriptDebugger.Proofs.Results
import ScriptDebugger.Proofs.Source.Positions

/-! Texts that no profile is made of. Each part of the metadata and each line of a dump can be told to be
faulty by itself, and one faulty part anywhere refuses the whole: a method's range, a variable, or an
instruction that is none. -/
namespace ScriptDebugger

namespace VariableDescriptor

def parts (raw : String) : List String :=
  (raw.toList.splitOn ',').map fun part => String.ofList (Text.trimChars part)

-- Without a name, or with a slot that is no number.
def Unreadable (raw : String) : Prop :=
  (parts raw).headD "" = "" ∨
    ∃ slot, (parts raw)[2]? = some slot ∧ ∀ n, Numeral.readNat 64 slot ≠ .ok n

theorem parseRefused (raw : String) (position : Nat) :
    Refused (parse raw position) ↔ Unreadable raw := by
  unfold parse Unreadable parts
  cases (raw.toList.splitOn ',').map fun part => String.ofList (Text.trimChars part) with
  | nil => exact iff_of_true ⟨_,rfl⟩ (.inl rfl)
  | cons name rest =>
    dsimp only
    split
    · next unnamed => exact iff_of_true ⟨_,rfl⟩ (.inl unnamed)
    · next named =>
      rw [List.headD_cons, or_iff_right named, List.getElem?_cons_succ]
      cases rest[1]? with
      | none => exact iff_of_false (refusedNever _) nofun
      | some slot =>
        dsimp only
        cases read : Numeral.readNat 64 slot with
        | ok n =>
          refine iff_of_false (refusedNever _) ?_
          rintro ⟨_,⟨⟩,none⟩
          exact none n read
        | error cause =>
          refine iff_of_true ⟨_,rfl⟩ ⟨slot,rfl,fun n same => ?_⟩
          rw [read] at same
          contradiction

theorem parseAllRefused (raws : List String) :
    Refused (parseAll raws) ↔ ∃ raw ∈ raws, Unreadable raw := by
  have listed (raw : String) : raw ∈ raws ↔ ∃ entry ∈ raws.zipIdx, entry.1 = raw := by
    rw [← List.mem_map, List.zipIdx_map_fst]
  rw [parseAll, refusedEach]
  simp only [parseRefused, listed]
  constructor
  · exact fun ⟨entry,inside,bad⟩ => ⟨entry.1,⟨entry,inside,rfl⟩,bad⟩
  · rintro ⟨_,⟨entry,inside,rfl⟩,bad⟩
    exact ⟨entry,inside,bad⟩

end VariableDescriptor

def RawMethod.Unreadable (m : RawMethod) : Prop :=
  MethodInfo.parseRange? m.range = none ∨
    ∃ raw ∈ m.parameters ++ m.locals, VariableDescriptor.Unreadable raw

theorem RawMethod.checkRefused (m : RawMethod) : Refused m.check ↔ m.Unreadable := by
  unfold check Unreadable
  cases MethodInfo.parseRange? m.range with
  | none => exact iff_of_true ⟨_,rfl⟩ (.inl rfl)
  | some range =>
    refine refusedEither.trans ?_
    rw [or_iff_right (Option.some_ne_none range), VariableDescriptor.parseAllRefused,
      VariableDescriptor.parseAllRefused]
    simp only [List.mem_append, or_and_right, exists_or]

-- Not of the form of metadata, or with a part that cannot be read.
def DebugInfo.Unreadable (text : String) : Prop :=
  match rawDecoder.read? text with
  | none => True
  | some (_,methods,statics) =>
    (∃ m ∈ methods, m.Unreadable) ∨ ∃ raw ∈ statics, VariableDescriptor.Unreadable raw

theorem DebugInfo.parseRefused (text : String) : Refused (parse text) ↔ Unreadable text := by
  unfold parse Unreadable
  cases rawDecoder.read? text with
  | none => exact iff_of_true ⟨_,rfl⟩ trivial
  | some raw =>
    obtain ⟨documents,methods,statics⟩ := raw
    refine refusedEither.trans ?_
    rw [refusedEach, VariableDescriptor.parseAllRefused]
    simp only [RawMethod.checkRefused]

namespace SourceMap

theorem addRefused (b : Builder) (number : Nat) (line : DumpLine) :
    Refused (b.add number line) ↔ ¬ line.Known := by
  cases line with
  | source | methodStart | methodEnd => exact iff_of_false (refusedNever _) (not_not_intro trivial)
  | opcode offset mnemonic operand =>
    unfold Builder.add
    dsimp only
    cases listed : Opcode.ofMnemonic? mnemonic with
    | none => exact iff_of_true ⟨_,rfl⟩ fun ⟨op,same⟩ => Opcode.mnemonicUnlisted listed op same
    | some op =>
      exact iff_of_false (refusedNever _) (not_not_intro ⟨op,Opcode.readMnemonicExact listed⟩)

theorem linesRefused (lines : List (Nat × DumpLine)) (b : Builder) :
    Refused (lines.foldlM (fun (b : Builder) (number,line) => b.add number line) b) ↔
      ∃ line ∈ lines, ¬ line.2.Known := by
  induction lines generalizing b with
  | nil => exact iff_of_false (refusedNever b) nofun
  | cons head rest ih =>
    have first := addRefused b head.1 head.2
    simp only [List.foldlM_cons, List.mem_cons, exists_eq_or_imp, ← first]
    cases added : b.add head.1 head.2 with
    | error cause => exact iff_of_true ⟨cause,rfl⟩ (.inl ⟨cause,rfl⟩)
    | ok c =>
      rw [or_iff_right (refusedNever c), ← ih c]
      rfl

theorem buildRefused (dump : String) :
    Refused (build dump) ↔ ∃ line ∈ recognised dump, ¬ line.2.Known := by
  unfold build
  rw [refusedBind, linesRefused]
  exact or_iff_left fun ⟨_,_,refused⟩ => refusedNever _ refused

end SourceMap

theorem Profile.textsRefused (contract : ContractHash) (metadata dump : String) :
    Refused (ofTexts contract metadata dump) ↔
      DebugInfo.Unreadable metadata ∨ ∃ line ∈ SourceMap.recognised dump, ¬ line.2.Known := by
  unfold ofTexts
  rw [refusedEither, DebugInfo.parseRefused, SourceMap.buildRefused]

end ScriptDebugger
