import Mathlib.Order.BooleanAlgebra.Set
import ScriptDebugger.Proofs.Registry.Breakpoints

/-! Breakpoints against plain sets, two for each contract. Every operation answers what the sets say and
leaves what they become, whatever operations came before. So nothing of how the sets are kept can be
seen, such as whether a contract without breakpoints has an entry. -/
namespace ScriptDebugger

def SourceLocation.Before (a b : SourceLocation) : Prop :=
  a.file < b.file ∨ a.file = b.file ∧ a.line < b.line

theorem SourceLocation.compareBefore (a b : SourceLocation) : compare a b = .lt ↔ a.Before b := by
  change (compare a.file b.file).then (compare a.line b.line) = .lt ↔ _
  rw [Ordering.then_eq_lt]
  exact or_congr compareOfLessAndEq_eq_lt
    (and_congr Std.LawfulEqOrd.compare_eq_iff_eq Std.compare_eq_lt)

structure Marks where
  assembly : Set Nat
  source : Set SourceLocation

def BreakpointSet.marks (s : BreakpointSet) : Marks :=
  ⟨{o | o ∈ s.assembly},{l | l ∈ s.source}⟩

theorem BreakpointSet.marksInjective : Function.Injective marks := by
  intro s t same
  obtain ⟨assembly,source⟩ := Marks.mk.inj same
  obtain ⟨_,_⟩ := s
  obtain ⟨_,_⟩ := t
  exact congrArg₂ mk (Std.ExtTreeSet.ext_mem fun o => Set.ext_iff.mp assembly o)
    (Std.ExtTreeSet.ext_mem fun l => Set.ext_iff.mp source l)

namespace Breakpoints

def sets (b : Breakpoints) (contract : ContractHash) : Marks := (b.of contract).marks

theorem setsInsert (b : Breakpoints) (contract : ContractHash) (s : BreakpointSet) :
    sets (b.insert contract s) = Function.update b.sets contract s.marks := by
  funext other
  rw [sets, ofInsert, Function.update_apply]
  by_cases same : contract = other
  · rw [if_pos same, if_pos same.symm]
  · rw [if_neg same, if_neg (Ne.symm same)]
    rfl

theorem setsErase (b : Breakpoints) (contract : ContractHash) :
    sets (b.erase contract) = Function.update b.sets contract ⟨∅,∅⟩ := by
  funext other
  rw [sets, ofErase, Function.update_apply]
  by_cases same : contract = other
  · rw [if_pos same, if_pos same.symm]
    simp [BreakpointSet.marks]
  · rw [if_neg same, if_neg (Ne.symm same)]
    rfl

inductive Operation where
  | addAssembly (contract : ContractHash) (offsets : List Nat)
  | removeAssembly (contract : ContractHash) (offsets : List Nat)
  | addSource (contract : ContractHash) (locations : List SourceLocation)
  | removeSource (contract : ContractHash) (locations : List SourceLocation)
  | forget (contract : ContractHash)
  | assembly (contract : ContractHash)
  | source (contract : ContractHash)
  | hasAssembly (contract : ContractHash) (offset : Nat)
  | hasSource (contract : ContractHash) (location : SourceLocation)
  | get (contract : ContractHash)

def Operation.onAssembly : Operation → List ContractHash
  | addAssembly contract _ | removeAssembly contract _ | forget contract => [contract]
  | _ => []

def Operation.onSource : Operation → List ContractHash
  | addSource contract _ | removeSource contract _ | forget contract => [contract]
  | _ => []

inductive Reply where
  | done
  | flags (answers : Std.ExtTreeMap Nat Bool)
  | lineFlags (answers : List (SourceLocation × Bool))
  | offsets (listing : List Nat)
  | lines (listing : List SourceLocation)
  | verdict (held : Bool)
  | snapshot (s : BreakpointSet)

def operate (b : Breakpoints) : Operation → Reply × Breakpoints
  | .addAssembly contract offsets => (b.addAssembly contract offsets).map .flags id
  | .removeAssembly contract offsets => (b.removeAssembly contract offsets).map .flags id
  | .addSource contract locations => (.done,b.addSource contract locations)
  | .removeSource contract locations => (b.removeSource contract locations).map .lineFlags id
  | .forget contract => (.done,b.erase contract)
  | .assembly contract => (.offsets (b.of contract).assembly.toList,b)
  | .source contract => (.lines (b.of contract).source.toList,b)
  | .hasAssembly contract offset => (.verdict (b.hasAssembly contract offset),b)
  | .hasSource contract location => (.verdict (b.hasSource contract location),b)
  | .get contract => (.snapshot (b.of contract),b)

def run (b : Breakpoints) (operations : List Operation) : Breakpoints :=
  operations.foldl (fun b o => (b.operate o).2) b

def replies (b : Breakpoints) : List Operation → List Reply
  | [] => []
  | o :: later => (b.operate o).1 :: replies (b.operate o).2 later

end Breakpoints

namespace Marks

/-- What a removal is asked to take out. Without naming any entry it is asked for all. -/
def named {α : Type} : List α → Set α → Set α
  | [], present => present
  | entries, _ => {x | x ∈ entries}

def after (m : ContractHash → Marks) : Breakpoints.Operation → ContractHash → Marks
  | .addAssembly contract offsets =>
    Function.update m contract
      { m contract with assembly := (m contract).assembly ∪ {o | o ∈ offsets} }
  | .removeAssembly contract offsets =>
    Function.update m contract
      { m contract with
        assembly := (m contract).assembly \ named offsets (m contract).assembly }
  | .addSource contract locations =>
    Function.update m contract
      { m contract with source := (m contract).source ∪ {l | l ∈ locations} }
  | .removeSource contract locations =>
    Function.update m contract
      { m contract with source := (m contract).source \ named locations (m contract).source }
  | .forget contract => Function.update m contract ⟨∅,∅⟩
  | .assembly _ | .source _ | .hasAssembly _ _ | .hasSource _ _ | .get _ => m

/-- Every element once, each before the ones after it. -/
def Lists {α : Type} (before : α → α → Prop) (listing : List α) (present : Set α) : Prop :=
  listing.Pairwise before ∧ ∀ x, x ∈ listing ↔ x ∈ present

/-- Whatever was asked has a flag, which says whether it is true, and nothing else has one. -/
def Tells (flags : Std.ExtTreeMap Nat Bool) (asked truth : Set Nat) : Prop :=
  ∀ o flag, flags[o]? = some flag ↔ o ∈ asked ∧ (flag = true ↔ o ∈ truth)

inductive Replies (m : ContractHash → Marks) : Breakpoints.Operation → Breakpoints.Reply → Prop where
  | addedAssembly {contract : ContractHash} {offsets : List Nat} {flags : Std.ExtTreeMap Nat Bool}
      (told : Tells flags {o | o ∈ offsets} (m contract).assemblyᶜ) :
      Replies m (.addAssembly contract offsets) (.flags flags)
  | removedAssembly {contract : ContractHash} {offsets : List Nat}
      {flags : Std.ExtTreeMap Nat Bool}
      (told : Tells flags (named offsets (m contract).assembly) (m contract).assembly) :
      Replies m (.removeAssembly contract offsets) (.flags flags)
  | addedSource {contract : ContractHash} {locations : List SourceLocation} :
      Replies m (.addSource contract locations) .done
  | clearedSource {contract : ContractHash} {answers : List (SourceLocation × Bool)}
      (lists : Lists SourceLocation.Before (answers.map Prod.fst) (m contract).source)
      (all : ∀ answer ∈ answers, answer.2 = true) :
      Replies m (.removeSource contract []) (.lineFlags answers)
  | removedSource {contract : ContractHash} {locations : List SourceLocation}
      {answers : List (SourceLocation × Bool)} (given : locations ≠ [])
      (inOrder : answers.map Prod.fst = locations)
      (told : ∀ answer ∈ answers, answer.2 = true ↔ answer.1 ∈ (m contract).source) :
      Replies m (.removeSource contract locations) (.lineFlags answers)
  | forgotten {contract : ContractHash} : Replies m (.forget contract) .done
  | assembly {contract : ContractHash} {offsets : List Nat}
      (lists : Lists (· < ·) offsets (m contract).assembly) :
      Replies m (.assembly contract) (.offsets offsets)
  | source {contract : ContractHash} {lines : List SourceLocation}
      (lists : Lists SourceLocation.Before lines (m contract).source) :
      Replies m (.source contract) (.lines lines)
  | hasAssembly {contract : ContractHash} {offset : Nat} {held : Bool}
      (told : held = true ↔ offset ∈ (m contract).assembly) :
      Replies m (.hasAssembly contract offset) (.verdict held)
  | hasSource {contract : ContractHash} {location : SourceLocation} {held : Bool}
      (told : held = true ↔ location ∈ (m contract).source) :
      Replies m (.hasSource contract location) (.verdict held)
  | get {contract : ContractHash} {s : BreakpointSet} (same : s.marks = m contract) :
      Replies m (.get contract) (.snapshot s)

theorem assemblyKept (m : ContractHash → Marks) (changed contract : ContractHash)
    (source : Set SourceLocation) :
    (Function.update m changed { m changed with source } contract).assembly =
      (m contract).assembly := by
  by_cases same : contract = changed
  · rw [same, Function.update_self]
  · rw [Function.update_of_ne same]

theorem sourceKept (m : ContractHash → Marks) (changed contract : ContractHash)
    (assembly : Set Nat) :
    (Function.update m changed { m changed with assembly } contract).source =
      (m contract).source := by
  by_cases same : contract = changed
  · rw [same, Function.update_self]
  · rw [Function.update_of_ne same]

theorem tellsOnce {flags others : Std.ExtTreeMap Nat Bool} {asked truth : Set Nat}
    (told : Tells flags asked truth) (again : Tells others asked truth) : flags = others :=
  Std.ExtTreeMap.ext_getElem? fun o => Option.ext fun flag => (told o flag).trans (again o flag).symm

end Marks

namespace Breakpoints

theorem listsOffsets (set : Std.ExtTreeSet Nat) : Marks.Lists (· < ·) set.toList {o | o ∈ set} :=
  ⟨Std.ExtTreeSet.ordered_toList.imp Std.compare_eq_lt.mp,fun _ => Std.ExtTreeSet.mem_toList⟩

theorem listsLines (set : Std.ExtTreeSet SourceLocation) :
    Marks.Lists SourceLocation.Before set.toList {l | l ∈ set} :=
  ⟨Std.ExtTreeSet.ordered_toList.imp (SourceLocation.compareBefore _ _).mp,
    fun _ => Std.ExtTreeSet.mem_toList⟩

theorem tellsEach {flags : Std.ExtTreeMap Nat Bool} {offsets : List Nat} {answer : Nat → Bool}
    {asked truth : Set Nat}
    (answers : ∀ o, flags[o]? = if o ∈ offsets then some (answer o) else none)
    (listed : ∀ o, o ∈ asked ↔ o ∈ offsets) (right : ∀ o ∈ offsets, answer o = true ↔ o ∈ truth) :
    Marks.Tells flags asked truth := by
  intro o flag
  rw [answers, listed]
  by_cases mentioned : o ∈ offsets
  · rw [if_pos mentioned, Option.some_inj, and_iff_right mentioned, ← right o mentioned]
    exact eq_comm.trans Bool.eq_iff_iff
  · simp [mentioned]

theorem assemblyAdded (b : Breakpoints) (contract : ContractHash) (offsets : List Nat) :
    Marks.Tells (b.addAssembly contract offsets).1 {o | o ∈ offsets}
      (b.sets contract).assemblyᶜ :=
  tellsEach (answeredAll true (b.of contract).assembly offsets).answers (fun _ => Iff.rfl)
    fun o _ => by simp [sets, BreakpointSet.marks, ← Std.ExtTreeSet.contains_iff_mem]

theorem assemblyRemoved (b : Breakpoints) (contract : ContractHash) (offsets : List Nat) :
    Marks.Tells (b.removeAssembly contract offsets).1
      (Marks.named offsets (b.sets contract).assembly) (b.sets contract).assembly := by
  unfold removeAssembly sets of
  cases b[contract]? with
  | none =>
    refine tellsEach (flagsAlike false offsets) (fun o => ?_) fun o _ => ?_
    · cases offsets <;> simp [Marks.named, BreakpointSet.marks]
    · simp [BreakpointSet.marks]
  | some s =>
    cases offsets with
    | nil =>
      refine tellsEach (flagsAlike true s.assembly.toList) (fun o => ?_) fun o there => ?_
      · simp [Marks.named, BreakpointSet.marks]
      · simpa [BreakpointSet.marks] using there
    | cons head tail =>
      refine tellsEach (answeredAll false s.assembly (head :: tail)).answers (fun o => Iff.rfl)
        fun o _ => ?_
      simp [BreakpointSet.marks]

theorem sourceRemoved (b : Breakpoints) (contract : ContractHash)
    (locations : List SourceLocation) :
    (b.removeSource contract locations).1 =
      (if locations = [] then (b.of contract).source.toList else locations).map
        fun l => (l,(b.of contract).source.contains l) := by
  unfold removeSource of
  cases b[contract]? with
  | none => cases locations <;> simp
  | some s =>
    cases locations with
    | nil => exact List.map_congr_left fun l there => congrArg (Prod.mk l) (by simpa using there)
    | cons head tail =>
      refine (takeOutAnswers ∅ s.source (head :: tail)).trans (List.map_congr_left fun l _ => ?_)
      simp

theorem sourceCleared (b : Breakpoints) (contract : ContractHash) :
    Marks.Replies b.sets (.removeSource contract [])
      (.lineFlags (b.removeSource contract []).1) := by
  rw [sourceRemoved, if_pos rfl]
  refine .clearedSource ?_ fun answer listed => ?_
  · rw [List.map_map]
    exact (List.map_id _).symm ▸ listsLines _
  · obtain ⟨l,there,rfl⟩ := List.mem_map.mp listed
    simpa using there

theorem sourceTakenOut (b : Breakpoints) (contract : ContractHash)
    {locations : List SourceLocation} (given : locations ≠ []) :
    Marks.Replies b.sets (.removeSource contract locations)
      (.lineFlags (b.removeSource contract locations).1) := by
  rw [sourceRemoved, if_neg given]
  refine .removedSource given ?_ fun answer listed => ?_
  · rw [List.map_map]
    exact List.map_id _
  · obtain ⟨l,_,rfl⟩ := List.mem_map.mp listed
    exact Std.ExtTreeSet.contains_iff_mem

theorem setsMissing {b : Breakpoints} {contract : ContractHash} (missing : b[contract]? = none) :
    b.sets contract = ⟨∅,∅⟩ := by
  simp [sets, of, missing, BreakpointSet.marks]

theorem setsAddAssembly (b : Breakpoints) (contract : ContractHash) (offsets : List Nat) :
    (b.addAssembly contract offsets).2.sets = Marks.after b.sets (.addAssembly contract offsets) := by
  have members := (answeredAll true (b.of contract).assembly offsets).members
  refine (setsInsert b contract _).trans (congrArg (Function.update b.sets contract) ?_)
  refine congrArg₂ Marks.mk (Set.ext fun o => (members o).trans ?_) rfl
  by_cases listed : o ∈ offsets <;> simp [listed, sets, BreakpointSet.marks]

theorem setsRemoveAssembly (b : Breakpoints) (contract : ContractHash) (offsets : List Nat) :
    (b.removeAssembly contract offsets).2.sets =
      Marks.after b.sets (.removeAssembly contract offsets) := by
  unfold removeAssembly
  cases found : b[contract]? with
  | none =>
    have empty := setsMissing found
    refine (Function.update_eq_self contract b.sets).symm.trans (congrArg _ ?_)
    simp [empty]
  | some s =>
    have same : b.of contract = s := by simp [of, found]
    refine (setsInsert b contract _).trans (congrArg (Function.update b.sets contract) ?_)
    rw [sets, same]
    refine congrArg₂ Marks.mk (Set.ext fun o => ?_) rfl
    cases offsets with
    | nil => simp [Marks.named, BreakpointSet.marks]
    | cons head tail =>
      refine ((answeredAll false s.assembly (head :: tail)).members o).trans ?_
      by_cases listed : o ∈ head :: tail
      · rw [if_pos listed]
        exact iff_of_false Bool.false_ne_true fun both => both.2 listed
      · rw [if_neg listed]
        exact (and_iff_left listed).symm

theorem setsAddSource (b : Breakpoints) (contract : ContractHash)
    (locations : List SourceLocation) :
    (b.addSource contract locations).sets = Marks.after b.sets (.addSource contract locations) := by
  refine (setsInsert b contract _).trans (congrArg (Function.update b.sets contract) ?_)
  refine congrArg₂ Marks.mk rfl (Set.ext fun l => ?_)
  simp [sets, BreakpointSet.marks]

theorem setsRemoveSource (b : Breakpoints) (contract : ContractHash)
    (locations : List SourceLocation) :
    (b.removeSource contract locations).2.sets =
      Marks.after b.sets (.removeSource contract locations) := by
  unfold removeSource
  cases found : b[contract]? with
  | none =>
    have empty := setsMissing found
    refine (Function.update_eq_self contract b.sets).symm.trans (congrArg _ ?_)
    simp [empty]
  | some s =>
    have same : b.of contract = s := by simp [of, found]
    refine (setsInsert b contract _).trans (congrArg (Function.update b.sets contract) ?_)
    rw [sets, same]
    refine congrArg₂ Marks.mk rfl (Set.ext fun l => ?_)
    cases locations with
    | nil => simp [Marks.named, BreakpointSet.marks]
    | cons head tail => exact takeOutLeft ∅ s.source (head :: tail) l

theorem operateSets (b : Breakpoints) (o : Operation) :
    (b.operate o).2.sets = Marks.after b.sets o := by
  cases o with
  | addAssembly contract offsets => exact setsAddAssembly b contract offsets
  | removeAssembly contract offsets => exact setsRemoveAssembly b contract offsets
  | addSource contract locations => exact setsAddSource b contract locations
  | removeSource contract locations => exact setsRemoveSource b contract locations
  | forget contract => exact setsErase b contract
  | assembly | source | hasAssembly | hasSource | get => rfl

theorem operateReplies (b : Breakpoints) (o : Operation) :
    Marks.Replies b.sets o (b.operate o).1 := by
  cases o with
  | addAssembly contract offsets => exact .addedAssembly (assemblyAdded b contract offsets)
  | removeAssembly contract offsets => exact .removedAssembly (assemblyRemoved b contract offsets)
  | addSource => exact .addedSource
  | removeSource contract locations =>
    by_cases empty : locations = []
    · exact empty ▸ sourceCleared b contract
    · exact sourceTakenOut b contract empty
  | forget => exact .forgotten
  | assembly contract => exact .assembly (listsOffsets _)
  | source contract => exact .source (listsLines _)
  | hasAssembly contract offset => exact .hasAssembly Std.ExtTreeSet.contains_iff_mem
  | hasSource contract location => exact .hasSource Std.ExtTreeSet.contains_iff_mem
  | get contract => exact .get rfl

theorem runSets (b : Breakpoints) (operations : List Operation) :
    (b.run operations).sets = operations.foldl Marks.after b.sets := by
  induction operations generalizing b with
  | nil => rfl
  | cons o later ih =>
    rw [List.foldl_cons, ← operateSets]
    exact ih (b.operate o).2

theorem assemblyElsewhere (b : Breakpoints) {o : Operation} {contract : ContractHash}
    (elsewhere : contract ∉ o.onAssembly) :
    ((b.operate o).2.of contract).assembly = (b.of contract).assembly := by
  have same : ((b.operate o).2.sets contract).assembly = (b.sets contract).assembly := by
    rw [operateSets]
    cases o with
    | addAssembly | removeAssembly | forget =>
      exact congrArg Marks.assembly
        (Function.update_of_ne (mt List.mem_singleton.mpr elsewhere) _ _)
    | addSource | removeSource => exact Marks.assemblyKept b.sets _ contract _
    | assembly | source | hasAssembly | hasSource | get => rfl
  exact Std.ExtTreeSet.ext_mem fun offset => Set.ext_iff.mp same offset

theorem sourceElsewhere (b : Breakpoints) {o : Operation} {contract : ContractHash}
    (elsewhere : contract ∉ o.onSource) :
    ((b.operate o).2.of contract).source = (b.of contract).source := by
  have same : ((b.operate o).2.sets contract).source = (b.sets contract).source := by
    rw [operateSets]
    cases o with
    | addSource | removeSource | forget =>
      exact congrArg Marks.source (Function.update_of_ne (mt List.mem_singleton.mpr elsewhere) _ _)
    | addAssembly | removeAssembly => exact Marks.sourceKept b.sets _ contract _
    | assembly | source | hasAssembly | hasSource | get => rfl
  exact Std.ExtTreeSet.ext_mem fun l => Set.ext_iff.mp same l

-- Removals look for an entry of the contract and not only for its sets, so for them it counts that what
-- they answer is fixed by the sets.
theorem alikeReply {a b : Breakpoints} (same : a.sets = b.sets) (o : Operation) :
    (a.operate o).1 = (b.operate o).1 := by
  have alike (contract : ContractHash) : a.of contract = b.of contract :=
    BreakpointSet.marksInjective (congrFun same contract)
  cases o with
  | removeAssembly contract offsets =>
    have removed := assemblyRemoved b contract offsets
    rw [← same] at removed
    exact congrArg Reply.flags (Marks.tellsOnce (assemblyRemoved a contract offsets) removed)
  | removeSource contract locations =>
    have removed := sourceRemoved b contract locations
    rw [← alike] at removed
    exact congrArg Reply.lineFlags ((sourceRemoved a contract locations).trans removed.symm)
  | addAssembly | addSource | forget | assembly | source | hasAssembly | hasSource | get =>
    simp [operate, addAssembly, hasAssembly, hasSource, alike]

theorem alikeReplies {a b : Breakpoints} (same : a.sets = b.sets) (later : List Operation) :
    a.replies later = b.replies later := by
  induction later generalizing a b with
  | nil => rfl
  | cons o later ih =>
    refine congrArg₂ List.cons (alikeReply same o) (ih ?_)
    rw [operateSets, operateSets, same]

theorem setsForgotten {b : Breakpoints} {contract : ContractHash}
    (empty : (b.of contract).isEmpty = true) : b.sets = (b.operate (.forget contract)).2.sets := by
  have none : b.sets contract = ⟨∅,∅⟩ := by
    obtain ⟨assembly,source⟩ := Bool.and_eq_true_iff.mp empty
    simp_all [sets, BreakpointSet.marks]
  rw [operateSets, Marks.after, ← none, Function.update_eq_self]

theorem actsAsPlainSets (operations : List Operation) :
    let b := run ∅ operations
    let m := operations.foldl Marks.after fun _ => ⟨∅,∅⟩
    b.sets = m ∧
    (∀ o, Marks.Replies m o (b.operate o).1) ∧
    (∀ contract,
      Marks.Lists (· < ·) (b.of contract).assembly.toList {o | b.hasAssembly contract o = true} ∧
      Marks.Lists SourceLocation.Before (b.of contract).source.toList
        {l | b.hasSource contract l = true}) ∧
    (∀ o contract,
      (contract ∉ o.onAssembly →
        ((b.operate o).2.of contract).assembly = (b.of contract).assembly) ∧
      (contract ∉ o.onSource → ((b.operate o).2.of contract).source = (b.of contract).source)) ∧
    ∀ contract, (b.of contract).isEmpty = true →
      ∀ later, b.replies later = (b.operate (.forget contract)).2.replies later := by
  intro b m
  have empty : sets ∅ = fun _ => ⟨∅,∅⟩ := funext fun _ => setsMissing Std.ExtTreeMap.getElem?_empty
  have same : b.sets = m :=
    (runSets ∅ operations).trans (congrArg (operations.foldl Marks.after) empty)
  refine ⟨same,fun o => same ▸ operateReplies b o,fun contract => ⟨?_,?_⟩,
    fun o contract => ⟨assemblyElsewhere b,sourceElsewhere b⟩,
    fun contract none => alikeReplies (setsForgotten none)⟩
  · obtain ⟨ascending,members⟩ := listsOffsets (b.of contract).assembly
    exact ⟨ascending,fun o => (members o).trans Std.ExtTreeSet.contains_iff_mem.symm⟩
  · obtain ⟨ascending,members⟩ := listsLines (b.of contract).source
    exact ⟨ascending,fun l => (members l).trans Std.ExtTreeSet.contains_iff_mem.symm⟩

end Breakpoints

end ScriptDebugger
