import ScriptDebugger.Inspection
import ScriptDebugger.Proofs.Registry.Refusals

/-! The named variables of a frame. Their listing follows the descriptors in scope, those of the method
the frame stands in before those of the static fields, and has each whose slot exists. The look-up by
name passes over the descriptors on its own; it fails where the listing does, and else finds the first
variable listed under the name. -/
namespace ScriptDebugger.EngineView

/-- The variables of some descriptors, in their order: one for each that has a slot in the array. -/
inductive Initialised (kind : SlotKind) (slots : Option (List StackItem)) :
    List VariableDescriptor → List Variable → Prop where
  | nil : Initialised kind slots [] []
  | held {d items item ds xs} (array : slots = some items) (there : items[d.slot]? = some item)
      (tail : Initialised kind slots ds xs) :
      Initialised kind slots (d :: ds) (⟨d.name,d.type,kind,item⟩ :: xs)
  | missing {d ds xs} (short : ∀ items, slots = some items → items.length ≤ d.slot)
      (tail : Initialised kind slots ds xs) : Initialised kind slots (d :: ds) xs

/-- Parameters and local variables of the first method whose range has the position. -/
inductive InMethod (info : DebugInfo) (position : Nat) :
    List VariableDescriptor → List VariableDescriptor → Prop where
  | inside {m} (first : FirstAmong (·.Contains position) m info.methods) :
      InMethod info position m.parameters m.locals
  | outside (none : ∀ m ∈ info.methods, ¬ m.Contains position) : InMethod info position [] []

inductive Lists (info : DebugInfo) (f : Frame) : List Variable → Prop where
  | inOrder {parameters vars held kept fields} (own : InMethod info f.position parameters vars)
      (arguments : Initialised .arguments f.arguments parameters held)
      (locals : Initialised .locals f.locals vars kept)
      (statics : Initialised .statics f.statics info.statics fields) :
      Lists info f (held ++ kept ++ fields)

def Listed (r : Registry) (e : Engine) (index : Nat) (xs : List Variable) : Prop :=
  ∃ f p, e.frames[index]? = some f ∧ r.profile? f.contract = some p ∧ Lists p.info f xs

/-- Why a frame has no variables to name. -/
inductive Unlisted (r : Registry) (e : Engine) (index : Nat) : Error → Prop where
  | beyond (short : e.frames.length ≤ index) :
      Unlisted r e index (.frameOutOfRange index e.frames.length)
  | unregistered {f} (there : e.frames[index]? = some f) (unknown : r.profile? f.contract = none) :
      Unlisted r e index (.notRegistered f.contract none)

variable {r : Registry} {e : Engine} {index : Nat} {f : Frame} {p : Profile} {kind : SlotKind}

theorem slotsViewed (f : Frame) (kind : SlotKind) : f.view.slots kind = f.slots kind := by
  cases kind <;> rfl

theorem variableHeld {d : VariableDescriptor} {items : List StackItem} {item : StackItem}
    (array : f.slots kind = some items) (there : items[d.slot]? = some item) :
    variableAt? f.view kind d = some ⟨d.name,d.type,kind,item⟩ := by
  simp [variableAt?, slotsViewed, array, there]

theorem variableMissing {d : VariableDescriptor}
    (short : ∀ items, f.slots kind = some items → items.length ≤ d.slot) :
    variableAt? f.view kind d = none := by
  cases array : f.slots kind with
  | none => simp [variableAt?, slotsViewed, array]
  | some items => simp [variableAt?, slotsViewed, array, short items array]

theorem initialisedFound (ds : List VariableDescriptor) :
    Initialised kind (f.slots kind) ds (ds.filterMap (variableAt? f.view kind)) := by
  induction ds with
  | nil => exact .nil
  | cons d ds ih =>
    by_cases short : ∀ items, f.slots kind = some items → items.length ≤ d.slot
    · rw [List.filterMap_cons_none (variableMissing short)]
      exact .missing short ih
    · simp only [not_forall, Nat.not_le] at short
      obtain ⟨items,array,inside⟩ := short
      have there := List.getElem?_eq_getElem inside
      rw [List.filterMap_cons_some (variableHeld array there)]
      exact .held array there ih

theorem initialisedOnly {ds : List VariableDescriptor} {xs : List Variable}
    (listed : Initialised kind (f.slots kind) ds xs) : ds.filterMap (variableAt? f.view kind) = xs := by
  induction listed with
  | nil => rfl
  | held array there tail ih => rw [List.filterMap_cons_some (variableHeld array there), ih]
  | missing short tail ih => rw [List.filterMap_cons_none (variableMissing short), ih]

theorem initialisedExact {ds : List VariableDescriptor} {xs : List Variable} :
    Initialised kind (f.slots kind) ds xs ↔ ds.filterMap (variableAt? f.view kind) = xs :=
  ⟨initialisedOnly,fun same => same ▸ initialisedFound ds⟩

section Scope

variable {info : DebugInfo} {position : Nat} {parameters vars : List VariableDescriptor}

theorem inMethodFound {m : MethodInfo} (found : info.methodAt? position = some m) :
    InMethod info position parameters vars ↔ parameters = m.parameters ∧ vars = m.locals := by
  have first (other : MethodInfo) : info.methodAt? position = some other ↔ _ :=
    firstFound (fun _ => decide_eq_true_iff) info.methods other
  constructor
  · rintro (other | none)
    · cases found.symm.trans ((first _).mpr other)
      exact ⟨rfl,rfl⟩
    · obtain ⟨before,after,whole,here,-⟩ := (first m).mp found
      exact absurd here (none m (by simp [whole]))
  · rintro ⟨rfl,rfl⟩
    exact .inside ((first m).mp found)

theorem inMethodNowhere (found : info.methodAt? position = none) :
    InMethod info position parameters vars ↔ parameters = [] ∧ vars = [] := by
  have none : ∀ m ∈ info.methods, ¬ m.Contains position := by
    simpa [DebugInfo.methodAt?] using found
  constructor
  · rintro (⟨before,after,whole,here,-⟩ | -)
    · exact absurd here (none _ (by simp [whole]))
    · exact ⟨rfl,rfl⟩
  · rintro ⟨rfl,rfl⟩
    exact .outside none

end Scope

theorem descriptorsInScope (known : r.profile? f.contract = some p) :
    ∃ parameters vars, (∀ others more, InMethod p.info f.position others more ↔
        others = parameters ∧ more = vars) ∧
      descriptors r f.view = .ok (parameters.map (.arguments,·) ++ vars.map (.locals,·) ++
        p.info.statics.map (.statics,·)) := by
  have profile : r.profile f.view.contract = .ok p := Registry.profileFound known
  simp only [descriptors, profile, bind, Except.bind]
  cases found : p.info.methodAt? f.view.position with
  | none => exact ⟨[],[],fun _ _ => inMethodNowhere found,rfl⟩
  | some m => exact ⟨m.parameters,m.locals,fun _ _ => inMethodFound found,rfl⟩

/-- What comes of each descriptor, in the order of the look-up. -/
abbrev shown (f : Frame) (ds : List (SlotKind × VariableDescriptor)) : List Variable :=
  ds.filterMap fun (kind, d) => variableAt? f.view kind d

theorem descriptorsListed (known : r.profile? f.contract = some p) :
    ∃ ds, descriptors r f.view = .ok ds ∧ ∀ xs, Lists p.info f xs ↔ shown f ds = xs := by
  obtain ⟨parameters,vars,scope,inOrder⟩ := descriptorsInScope known
  refine ⟨_,inOrder,fun xs => ?_⟩
  simp only [shown, List.filterMap_append, List.filterMap_map, Function.comp_def]
  constructor
  · rintro ⟨own,arguments,locals,statics⟩
    obtain ⟨rfl,rfl⟩ := (scope _ _).mp own
    rw [initialisedExact.mp arguments, initialisedExact.mp locals, initialisedExact.mp statics]
  · rintro rfl
    exact .inOrder ((scope _ _).mpr ⟨rfl,rfl⟩) (initialisedExact.mpr rfl) (initialisedExact.mpr rfl)
      (initialisedExact.mpr rfl)

theorem frameThere (there : e.frames[index]? = some f) : e.view.frame index = .ok f.view := by
  simp [frame, Engine.view, there]
  rfl

theorem frameBeyond (beyond : e.frames[index]? = none) :
    e.view.frame index = .error (.frameOutOfRange index e.frames.length) := by
  simp [frame, Engine.view, beyond]
  rfl

theorem unlistedFails {cause : Error} (unlisted : Unlisted r e index cause) :
    e.view.variablesAt r index = .error cause := by
  cases unlisted with
  | beyond short =>
    have beyond := frameBeyond (List.getElem?_eq_none_iff.mpr short)
    simp only [variablesAt, beyond, bind, Except.bind]
  | @unregistered f there unknown =>
    have profile : r.profile f.view.contract = .error (.notRegistered f.contract none) :=
      (Registry.profileRefused r f.contract _).mpr ⟨unknown,rfl⟩
    simp only [variablesAt, frameThere there, descriptors, profile, bind, Except.bind]

theorem listedShows {xs : List Variable} (listed : Listed r e index xs) :
    e.view.variablesAt r index = .ok xs := by
  obtain ⟨f,p,there,known,lists⟩ := listed
  obtain ⟨ds,inOrder,exact⟩ := descriptorsListed known
  obtain rfl := (exact xs).mp lists
  simp only [variablesAt, frameThere there, inOrder, bind, Except.bind]
  rfl

theorem unlistedOrListed (r : Registry) (e : Engine) (index : Nat) :
    (∃ cause, Unlisted r e index cause) ∨ ∃ xs, Listed r e index xs := by
  cases there : e.frames[index]? with
  | none => exact .inl ⟨_,.beyond (List.getElem?_eq_none_iff.mp there)⟩
  | some f =>
    cases known : r.profile? f.contract with
    | none => exact .inl ⟨_,.unregistered there known⟩
    | some p =>
      obtain ⟨ds,-,exact⟩ := descriptorsListed known
      exact .inr ⟨shown f ds,f,p,there,known,(exact _).mpr rfl⟩

theorem listingFails (cause : Error) :
    e.view.variablesAt r index = .error cause ↔ Unlisted r e index cause := by
  refine ⟨fun failed => ?_,unlistedFails⟩
  rcases unlistedOrListed r e index with ⟨other,unlisted⟩ | ⟨xs,listed⟩
  · cases failed.symm.trans (unlistedFails unlisted)
    exact unlisted
  · cases failed.symm.trans (listedShows listed)

theorem listingShows (xs : List Variable) :
    e.view.variablesAt r index = .ok xs ↔ Listed r e index xs := by
  refine ⟨fun shown => ?_,listedShows⟩
  rcases unlistedOrListed r e index with ⟨cause,unlisted⟩ | ⟨ys,listed⟩
  · cases shown.symm.trans (unlistedFails unlisted)
  · cases shown.symm.trans (listedShows listed)
    exact listed

theorem nameKept {f : FrameView} {d : VariableDescriptor} {x : Variable}
    (found : variableAt? f kind d = some x) : x.name = d.name := by
  simp only [variableAt?, bind, Option.bind_eq_some_iff] at found
  obtain ⟨items,-,item,-,same⟩ := found
  cases same
  rfl

-- A descriptor without a slot is passed over by both, whether it has the name or not.
theorem firstNamed (f : FrameView) (name : String) (ds : List (SlotKind × VariableDescriptor)) :
    (ds.filter fun (_, d) => d.name = name).findSome? (fun (kind, d) => variableAt? f kind d) =
      (ds.filterMap fun (kind, d) => variableAt? f kind d).find? (·.name = name) := by
  induction ds with
  | nil => rfl
  | cons head ds ih =>
    obtain ⟨kind,d⟩ := head
    cases found : variableAt? f kind d with
    | none => by_cases same : d.name = name <;> simp [same, found, ih]
    | some x => by_cases same : d.name = name <;> simp [same, found, ih, nameKept found]

def firstWith (name : String) (xs : List Variable) : Result Variable :=
  match xs.find? (·.name = name) with
  | some x => return x
  | none => throw (.variableNotFound name)

theorem namedInListing (v : EngineView) (r : Registry) (name : String) (index : Nat) :
    v.findVariable r name index = v.variablesAt r index >>= firstWith name := by
  simp only [findVariable, variablesAt, firstNamed, bind_assoc, pure_bind]
  rfl

theorem firstWithFound (name : String) (xs : List Variable) (x : Variable) :
    firstWith name xs = .ok x ↔ FirstAmong (·.name = name) x xs := by
  have first := firstFound (fun x : Variable => decide_eq_true_iff (p := x.name = name)) xs x
  rw [firstWith, ← first]
  cases xs.find? fun x => x.name = name with
  | none => exact iff_of_false nofun nofun
  | some y => exact ⟨fun same => congrArg some (Except.ok.inj same),fun same => by cases same; rfl⟩

theorem firstWithMissing (name : String) (xs : List Variable) (cause : Error) :
    firstWith name xs = .error cause ↔
      cause = .variableNotFound name ∧ ∀ x ∈ xs, x.name ≠ name := by
  have none : xs.find? (fun x => x.name = name) = none ↔ ∀ x ∈ xs, x.name ≠ name := by simp
  rw [firstWith, ← none]
  cases xs.find? fun x => x.name = name with
  | none => exact ⟨fun same => ⟨(Except.error.inj same).symm,rfl⟩,fun both => both.1 ▸ rfl⟩
  | some y => exact iff_of_false nofun nofun

theorem namedAsListed (r : Registry) (e : Engine) (index : Nat) :
    (∀ cause, e.view.variablesAt r index = .error cause ↔ Unlisted r e index cause) ∧
    (∀ xs, e.view.variablesAt r index = .ok xs ↔ Listed r e index xs) ∧
    ∀ name,
      (∀ cause, e.view.findVariable r name index = .error cause ↔
        Unlisted r e index cause ∨ cause = .variableNotFound name ∧
          ∃ xs, Listed r e index xs ∧ ∀ x ∈ xs, x.name ≠ name) ∧
      ∀ x, e.view.findVariable r name index = .ok x ↔
        ∃ xs, Listed r e index xs ∧ FirstAmong (·.name = name) x xs := by
  refine ⟨listingFails,listingShows,fun name => ?_⟩
  simp only [← listingFails, ← listingShows, ← firstWithFound]
  rw [namedInListing]
  cases e.view.variablesAt r index with
  | error other =>
    refine ⟨fun cause => ?_,fun x => iff_of_false nofun (by rintro ⟨_,⟨⟩,_⟩)⟩
    rw [refusedHead, or_iff_left (by rintro ⟨_,_,⟨⟩,_⟩), Except.error.injEq]
  | ok xs =>
    simp only [Except.ok.injEq, exists_eq_left', reduceCtorEq, false_or, ← firstWithMissing]
    exact ⟨fun _ => Iff.rfl,fun _ => Iff.rfl⟩

end ScriptDebugger.EngineView
