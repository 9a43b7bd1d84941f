import ScriptDebugger.Proofs.Source.Readers
import ScriptDebugger.Source.Location

/-! The text of a source location. It is split at its last colon, and none is in the digits of a line
number, so whatever a file is called the line is read back, and with it the name without the white
space around it. -/
namespace ScriptDebugger.SourceLocation

open Text (trimChars)

variable {cs before after : List Char} {text : String}

theorem splitJoined (apart : ':' ∉ after) :
    splitLastColon (before ++ ':' :: after) = some (before,after) := by
  have run : ∀ c ∈ after.reverse, decide (c ≠ ':') = true := by
    simp only [List.mem_reverse, decide_eq_true_eq]
    rintro c member rfl
    exact apart member
  obtain ⟨taken,left⟩ := DumpLine.takenRun run (DumpLine.stopsAt (c := ':') before.reverse rfl)
  have reversed : (before ++ ':' :: after).reverse = after.reverse ++ ':' :: before.reverse := by simp
  rw [splitLastColon, reversed, left, taken]
  simp

theorem splitTaken (split : splitLastColon cs = some (before,after)) :
    cs = before ++ ':' :: after ∧ ':' ∉ after := by
  obtain ⟨run,whole,taken,all⟩ := DumpLine.runTaken (fun c => decide (c ≠ ':')) cs.reverse
  unfold splitLastColon at split
  rw [taken] at split
  cases left : cs.reverse.dropWhile (fun c => decide (c ≠ ':')) with
  | nil =>
    rw [left] at split
    cases split
  | cons c rest =>
    have stops := List.head?_dropWhile_not (fun c => decide (c ≠ ':')) cs.reverse
    rw [left] at split whole stops
    cases split
    have colon : c = ':' := by simpa using stops
    subst colon
    constructor
    · rw [← List.reverse_inj, whole]
      simp
    · intro member
      simpa using all ':' (List.mem_reverse.mp member)

theorem splitExact :
    splitLastColon cs = some (before,after) ↔ cs = before ++ ':' :: after ∧ ':' ∉ after :=
  ⟨splitTaken,fun ⟨whole,apart⟩ => whole ▸ splitJoined apart⟩

theorem parseExact {location : SourceLocation} :
    parse text = .ok location ↔
      ∃ before after, text.toList = before ++ ':' :: after ∧ ':' ∉ after ∧
        location.file = String.ofList (trimChars before) ∧
        Numeral.Writes location.line (trimChars after) ∧ location.line < Nat.pow 2 32 := by
  constructor
  · intro read
    unfold parse at read
    cases split : splitLastColon text.toList with
    | none =>
      rw [split] at read
      cases read
    | some parts =>
      obtain ⟨before,after⟩ := parts
      obtain ⟨whole,apart⟩ := splitExact.mp split
      cases number : Numeral.readNat 32 (String.ofList (trimChars after)) with
      | error cause =>
        simp only [split, number] at read
        cases read
      | ok line =>
        simp only [split, number] at read
        cases read
        have written := Numeral.readNatExact.mp number
        rw [String.toList_ofList] at written
        exact ⟨before,after,whole,apart,rfl,written⟩
  · rintro ⟨before,after,whole,apart,file,written⟩
    have split := splitExact.mpr ⟨whole,apart⟩
    have number : Numeral.readNat 32 (String.ofList (trimChars after)) = .ok location.line :=
      Numeral.readNatExact.mpr (by rwa [String.toList_ofList])
    simp only [parse, split, number, ← file]
    rfl

theorem textChars (file : String) (line : Nat) :
    (SourceLocation.text ⟨file,line⟩).toList = file.toList ++ ':' :: Nat.toDigits 10 line := by
  simp [SourceLocation.text]
  rfl

theorem lineWritten (line : Nat) : Numeral.Writes line (trimChars (Nat.toDigits 10 line)) := by
  rw [Text.trimKept (Text.trimmedPlain fun c digit => Text.digitPlain (Numeral.decimalDigits c digit))]
  exact Numeral.writesDecimal line

theorem textRead (file : String) (line : UInt32) :
    parse (SourceLocation.text ⟨file,line.toNat⟩) = .ok ⟨Text.trim file,line.toNat⟩ := by
  have apart : ':' ∉ Nat.toDigits 10 line.toNat := fun member =>
    absurd (Numeral.decimalDigits ':' member) (by decide)
  exact parseExact.mpr ⟨_,_,textChars file line.toNat,apart,rfl,lineWritten line.toNat,line.toNat_lt⟩

theorem survivesText :
    (∀ (file : String) (line : UInt32),
      parse (SourceLocation.text ⟨file,line.toNat⟩) = .ok ⟨Text.trim file,line.toNat⟩ ∧
      (parse (SourceLocation.text ⟨file,line.toNat⟩) = .ok ⟨file,line.toNat⟩ ↔
        Text.Trimmed file.toList)) ∧
    ∀ text, (∃ location, parse text = .ok location) ↔
      ∃ before after line, text.toList = before ++ ':' :: after ∧ ':' ∉ after ∧
        Numeral.Writes line (trimChars after) ∧ line < Nat.pow 2 32 := by
  refine ⟨fun file line => ⟨textRead file line,?_⟩,fun text => ?_⟩
  · rw [textRead, ← Text.trimExact, Text.trim]
    simp only [Except.ok.injEq, SourceLocation.mk.injEq, and_true]
    rw [← String.toList_inj, String.toList_ofList]
  · constructor
    · rintro ⟨location,read⟩
      obtain ⟨before,after,whole,apart,-,written⟩ := parseExact.mp read
      exact ⟨before,after,location.line,whole,apart,written⟩
    · rintro ⟨before,after,line,whole,apart,written⟩
      exact ⟨⟨_,line⟩,parseExact.mpr ⟨before,after,whole,apart,rfl,written⟩⟩

end ScriptDebugger.SourceLocation
