import Mathlib.Data.List.Induction
import ScriptDebugger.Text.Blank

/-! Trimming. White space around a text is taken off whatever stands between, and a text is left as it
is exactly if it neither begins nor ends with white space, as every text does that was trimmed. -/
namespace ScriptDebugger.Text

def Blank (cs : List Char) : Prop := ∀ c ∈ cs, isBlank c

theorem blankBehind {before after : List Char} (front : Blank before) (back : Blank after) :
    Blank (before ++ after) :=
  fun c member => (List.mem_append.mp member).elim (front c) (back c)

def Trimmed (cs : List Char) : Prop :=
  (∀ c ∈ cs.head?, ¬ isBlank c) ∧ ∀ c ∈ cs.getLast?, ¬ isBlank c

theorem trimLeftOver {before : List Char} (blank : Blank before) (cs : List Char) :
    trimLeft (before ++ cs) = trimLeft cs :=
  List.dropWhile_append_of_pos blank

theorem trimRightOver {after : List Char} (blank : Blank after) (cs : List Char) :
    trimRight (cs ++ after) = trimRight cs := by
  unfold trimRight
  rw [List.reverse_append, List.dropWhile_append_of_pos]
  exact fun c member => blank c (List.mem_reverse.mp member)

theorem trimSurrounded {before after : List Char} (front : Blank before) (back : Blank after)
    (cs : List Char) : trimChars (before ++ cs ++ after) = trimChars cs := by
  unfold trimChars
  rw [List.append_assoc, trimLeftOver front]
  by_cases none : trimLeft cs = []
  · have gone : trimLeft (cs ++ after) = trimLeft after := by
      unfold trimLeft at none ⊢
      rw [List.dropWhile_append, none]
      rfl
    have empty : trimLeft after = [] := by simpa [trimLeft] using trimLeftOver back []
    rw [gone, empty, none]
  · have kept : trimLeft (cs ++ after) = trimLeft cs ++ after := by
      unfold trimLeft at none ⊢
      rw [List.dropWhile_append, if_neg (by simpa using none)]
    rw [kept, trimRightOver back]

theorem trimLeftKept {cs : List Char} (head : ∀ c ∈ cs.head?, ¬ isBlank c) : trimLeft cs = cs := by
  cases cs with
  | nil => rfl
  | cons c rest => exact List.dropWhile_cons_of_neg (head c rfl)

theorem trimKept {cs : List Char} (trimmed : Trimmed cs) : trimChars cs = cs := by
  obtain ⟨head,last⟩ := trimmed
  unfold trimChars trimRight
  rw [trimLeftKept head]
  have kept : trimLeft cs.reverse = cs.reverse :=
    trimLeftKept (by rwa [List.head?_reverse])
  rw [trimLeft] at kept
  rw [kept, List.reverse_reverse]

theorem headDropped (cs : List Char) : ∀ c ∈ (trimLeft cs).head?, ¬ isBlank c := by
  intro c head
  have stops := List.head?_dropWhile_not isBlank cs
  rw [trimLeft, Option.mem_def] at head
  simpa [head] using stops

theorem trimRightSplit (cs : List Char) : ∃ after, cs = trimRight cs ++ after :=
  ⟨(cs.reverse.takeWhile isBlank).reverse,by
    rw [trimRight, ← List.reverse_append, List.takeWhile_append_dropWhile, List.reverse_reverse]⟩

theorem trimTrimmed (cs : List Char) : Trimmed (trimChars cs) := by
  constructor
  · intro c first
    have kept : (trimRight (trimLeft cs)).head? = some c := first
    obtain ⟨after,split⟩ := trimRightSplit (trimLeft cs)
    refine headDropped cs c ?_
    rw [split, List.head?_append, kept]
    rfl
  · rw [trimChars, trimRight, List.getLast?_reverse]
    exact headDropped _

theorem trimExact {cs : List Char} : trimChars cs = cs ↔ Trimmed cs :=
  ⟨fun same => same ▸ trimTrimmed cs,trimKept⟩

theorem trimmedPlain {cs : List Char} (plain : ∀ c ∈ cs, ¬ isBlank c) : Trimmed cs :=
  ⟨fun c first => plain c (List.mem_of_head? first),
    fun c last => plain c (List.mem_of_getLast? last)⟩

theorem digitPlain {c : Char} (digit : c.isDigit) : ¬ isBlank c := by
  simp only [Char.isDigit, Bool.and_eq_true, decide_eq_true_eq] at digit
  have low : 48 ≤ c.toNat := by simpa using UInt32.le_iff_toNat_le.mp digit.1
  have high : c.toNat ≤ 57 := by simpa using UInt32.le_iff_toNat_le.mp digit.2
  simp [isBlank, blankRanges]
  omega

/-- Ends in a character that trimming leaves. -/
def Ends (cs : List Char) : Prop := ∃ c ∈ cs.getLast?, ¬ isBlank c

theorem endsBehind {cs : List Char} (front : List Char) (ends : Ends cs) : Ends (front ++ cs) := by
  obtain ⟨c,last,plain⟩ := ends
  exact ⟨c,by rw [List.getLast?_append, last]; rfl,plain⟩

theorem endsPlain {cs : List Char} (nonempty : cs ≠ []) (last : ∀ c ∈ cs.getLast?, ¬ isBlank c) :
    Ends cs :=
  have ends := List.getLast?_eq_some_getLast nonempty
  ⟨_,ends,last _ ends⟩

theorem endsTrimmed {cs : List Char} (head : ∀ c ∈ cs.head?, ¬ isBlank c) (ends : Ends cs) :
    Trimmed cs := by
  obtain ⟨c,last,plain⟩ := ends
  refine ⟨head,fun d other => ?_⟩
  cases last.symm.trans other
  exact plain

theorem endsVisible {cs : List Char} (ends : Ends cs) : ¬ Blank cs := by
  obtain ⟨c,last,plain⟩ := ends
  exact fun blank => plain (blank c (List.mem_of_getLast? last))

theorem visibleSplit {cs : List Char} (visible : ¬ Blank cs) :
    ∃ core tail, cs = core ++ tail ∧ Blank tail ∧ Ends core := by
  induction cs using List.reverseRecOn with
  | nil => exact absurd nofun visible
  | append_singleton cs c ih =>
    by_cases blank : isBlank c
    · have alone : Blank [c] := fun d member => List.mem_singleton.mp member ▸ blank
      have later : ¬ Blank cs := fun all => visible (blankBehind all alone)
      obtain ⟨core,tail,rfl,gap,ends⟩ := ih later
      exact ⟨core,tail ++ [c],List.append_assoc core tail [c],blankBehind gap alone,ends⟩
    · exact ⟨cs ++ [c],[],(List.append_nil _).symm,nofun,endsBehind cs ⟨c,rfl,blank⟩⟩

end ScriptDebugger.Text
