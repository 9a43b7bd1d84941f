import ScriptDebugger.Session

/-! What each operation on the table of sessions leaves under each name. The chain and what new
sessions start with are never changed. -/
namespace ScriptDebugger.SessionTable

theorem lookupPut (t : SessionTable) (s : Session) (name : String) :
    (t.put s).sessions[name]? = if s.name = name then some s else t.sessions[name]? := by
  simp only [put, Std.ExtTreeMap.getElem?_insert, Std.LawfulEqCmp.compare_eq_iff_eq]

theorem lookupDrop (t : SessionTable) (gone name : String) :
    (t.drop gone).sessions[name]? = if gone = name then none else t.sessions[name]? := by
  simp only [drop, Std.ExtTreeMap.getElem?_erase, Std.LawfulEqCmp.compare_eq_iff_eq]

theorem sameLookups {t u : SessionTable} (chain : t.chain = u.chain)
    (defaults : t.defaults = u.defaults)
    (lookups : ∀ name : String, t.sessions[name]? = u.sessions[name]?) : t = u := by
  have sessions : t.sessions = u.sessions := Std.ExtTreeMap.ext_getElem? fun name => lookups name
  cases t
  cases u
  simp_all

theorem putPut (t : SessionTable) {s r : Session} (same : s.name = r.name) :
    (t.put s).put r = t.put r := by
  refine sameLookups rfl rfl fun name => ?_
  rw [lookupPut, lookupPut, lookupPut, same]
  split <;> rfl

theorem putDrop (t : SessionTable) (s : Session) : (t.put s).drop s.name = t.drop s.name := by
  refine sameLookups rfl rfl fun name => ?_
  rw [lookupDrop, lookupDrop, lookupPut]
  split <;> rfl

theorem putDropOther (t : SessionTable) {s : Session} {name : String} (other : name ≠ s.name) :
    (t.put s).drop name = (t.drop name).put s := by
  refine sameLookups rfl rfl fun own => ?_
  rw [lookupDrop, lookupPut, lookupPut, lookupDrop]
  split
  · next same =>
    rw [if_neg]
    rintro rfl
    exact other same
  · rfl

theorem containsLookup (t : SessionTable) (name : String) :
    t.sessions.contains name = (t.sessions[name]?).isSome :=
  Std.ExtTreeMap.contains_eq_isSome_getElem?

theorem getOrCreateName (t : SessionTable) (name : String) : (t.getOrCreate name).name = name := by
  unfold getOrCreate
  cases found : t.sessions[name]? with
  | none => rfl
  | some s => exact t.named name s found

theorem getOrCreateOfFound {t : SessionTable} {name : String} {s : Session}
    (found : t.sessions[name]? = some s) : t.getOrCreate name = s := by
  simp [getOrCreate, found]

theorem getOrCreateOfMissing {t : SessionTable} {name : String}
    (missing : t.sessions[name]? = none) :
    t.getOrCreate name = .create name t.chain t.defaults := by
  simp [getOrCreate, missing]

theorem listedCons {α : Type} (value : String → α) (other : α) (head name : String)
    (tail : List String) :
    (if name ∈ tail then value name else if head = name then value head else other) =
      if name ∈ head :: tail then value name else other := by
  cases decEq head name with
  | isTrue same => subst same; simp
  | isFalse apart => simp [apart, Ne.symm apart]

theorem lookupRenew (t : SessionTable) (names : List String) :
    (t.renew names).chain = t.chain ∧ (t.renew names).defaults = t.defaults ∧
      ∀ name : String, (t.renew names).sessions[name]? =
        if name ∈ names then some (.create name t.chain t.defaults) else t.sessions[name]? := by
  induction names generalizing t with
  | nil => exact ⟨rfl,rfl,fun name => by simp [renew]⟩
  | cons head tail ih =>
    obtain ⟨chain,defaults,lookup⟩ := ih (t.put (.create head t.chain t.defaults))
    refine ⟨chain,defaults,fun name => ?_⟩
    have next := lookup name
    rw [lookupPut] at next
    exact next.trans
      (listedCons (fun name => some (Session.create name t.chain t.defaults)) _ head name tail)

-- The answers given so far play no part in what is left.
theorem deleteFrom (t : SessionTable) (names : List String)
    (answers : Std.ExtTreeMap String Bool) :
    let left := (names.foldl (fun (answers, t) name =>
      (answers.insert name (t.sessions.contains name), SessionTable.drop t name)) (answers,t)).2
    left.chain = t.chain ∧ left.defaults = t.defaults ∧
      ∀ name : String,
        left.sessions[name]? = if name ∈ names then none else t.sessions[name]? := by
  induction names generalizing t answers with
  | nil => exact ⟨rfl,rfl,fun name => by simp⟩
  | cons head tail ih =>
    obtain ⟨chain,defaults,lookup⟩ :=
      ih (t.drop head) (answers.insert head (t.sessions.contains head))
    refine ⟨chain,defaults,fun name => ?_⟩
    have next := lookup name
    rw [lookupDrop] at next
    exact next.trans (listedCons (fun _ => none) _ head name tail)

theorem lookupDelete (t : SessionTable) (names : List String) :
    (t.delete names).2.chain = t.chain ∧ (t.delete names).2.defaults = t.defaults ∧
      ∀ name : String,
        (t.delete names).2.sessions[name]? = if name ∈ names then none else t.sessions[name]? :=
  deleteFrom t names ∅

theorem renewOver (t : SessionTable) {s : Session} {names : List String}
    (listed : s.name ∈ names) : (t.put s).renew names = t.renew names := by
  obtain ⟨chain,defaults,lookups⟩ := (t.put s).lookupRenew names
  obtain ⟨chain',defaults',lookups'⟩ := t.lookupRenew names
  refine sameLookups (chain.trans chain'.symm) (defaults.trans defaults'.symm) fun name => ?_
  rw [lookups, lookups', lookupPut]
  split
  · rfl
  · rw [if_neg]
    rintro rfl
    contradiction

theorem deleteOver {t : SessionTable} {s : Session} {names : List String}
    (listed : s.name ∈ names) (taken : t.sessions.contains s.name = true) :
    (t.put s).delete names = t.delete names := by
  unfold delete
  generalize (∅ : Std.ExtTreeMap String Bool) = answers
  induction names generalizing t answers with
  | nil => contradiction
  | cons head tail ih =>
    cases decEq head s.name with
    | isTrue same =>
      subst same
      have still : (t.put s).sessions.contains s.name = true := by
        rw [containsLookup, lookupPut, if_pos rfl]
        rfl
      simp only [List.foldl_cons, putDrop, still, taken]
    | isFalse other =>
      have later : s.name ∈ tail := (List.mem_cons.mp listed).resolve_left (Ne.symm other)
      have still : (t.put s).sessions.contains head = t.sessions.contains head := by
        rw [containsLookup, containsLookup, lookupPut, if_neg (Ne.symm other)]
      have held : (t.drop head).sessions.contains s.name = true := by
        rw [containsLookup, lookupDrop, if_neg other, ← containsLookup, taken]
      simp only [List.foldl_cons, putDropOther t other, still]
      exact ih later held _

theorem timestampsFrom (t : SessionTable) (names : List String)
    (answers : Std.ExtTreeMap String (Option Nat)) :
    let left := (names.foldl (fun (answers, t) name =>
      let s := SessionTable.getOrCreate t name
      (answers.insert name s.overrides.timestamp, t.put s)) (answers,t)).2
    left.chain = t.chain ∧ left.defaults = t.defaults ∧
      ∀ name : String, left.sessions[name]? =
        if name ∈ names then some (t.getOrCreate name) else t.sessions[name]? := by
  induction names generalizing t answers with
  | nil => exact ⟨rfl,rfl,fun name => by simp⟩
  | cons head tail ih =>
    have own := getOrCreateName t head
    obtain ⟨chain,defaults,lookup⟩ := ih (t.put (t.getOrCreate head))
      (answers.insert head (t.getOrCreate head).overrides.timestamp)
    refine ⟨chain,defaults,fun name => ?_⟩
    have next := lookup name
    have kept : (t.put (t.getOrCreate head)).getOrCreate name = t.getOrCreate name := by
      show ((t.put (t.getOrCreate head)).sessions[name]?).getD (.create name t.chain t.defaults) = _
      rw [lookupPut, own]
      cases decEq head name with
      | isTrue same => simp [same]
      | isFalse apart => rw [if_neg apart]; rfl
    rw [lookupPut, own, kept] at next
    exact next.trans (listedCons (fun name => some (t.getOrCreate name)) _ head name tail)

theorem lookupTimestamps (t : SessionTable) (names : List String) :
    (t.timestamps names).2.chain = t.chain ∧ (t.timestamps names).2.defaults = t.defaults ∧
      ∀ name : String, (t.timestamps names).2.sessions[name]? =
        if name ∈ names then some (t.getOrCreate name) else t.sessions[name]? :=
  timestampsFrom t names ∅

theorem renameCases (t : SessionTable) (source target : String) :
    t.rename source target =
      if (t.sessions[target]?).isSome then .error (.sessionExists target)
      else match t.sessions[source]? with
        | none => .error (.sessionNotFound source)
        | some s => .ok ((t.drop source).put { s with name := target }) := by
  unfold rename existing
  rw [containsLookup]
  cases t.sessions[target]? with
  | some taken => rfl
  | none => cases t.sessions[source]? <;> rfl

theorem copyCases (t : SessionTable) (source target : String) :
    t.copy source target =
      match t.sessions[source]? with
      | none => .error (.sessionNotFound source)
      | some s =>
        if (t.sessions[target]?).isSome then .error (.sessionExists target)
        else .ok (t.put (.create target s.snapshot s.overrides)) := by
  unfold copy existing
  rw [containsLookup]
  cases t.sessions[source]? with
  | none => rfl
  | some s => cases t.sessions[target]? <;> rfl

theorem dropMissing {t : SessionTable} {name : String} (missing : t.sessions[name]? = none) :
    t.drop name = t := by
  refine sameLookups rfl rfl fun other => ?_
  rw [lookupDrop]
  split
  · next same => rw [← same, missing]
  · rfl

def Command.CarriesOut (c : Command Unit) (t : SessionTable) (outcome : Result SessionTable) : Prop :=
  c.run t = match outcome with
    | .ok u => .ok () u
    | .error cause => .error cause t

-- The source is taken out before it is known to be there: if it is not, nothing was taken out.
theorem renameInPlace (t : SessionTable) (source target : String) :
    (Command.rename source target).CarriesOut t (t.rename source target) := by
  unfold Command.CarriesOut Command.rename
  rw [renameCases, EStateM.run_bind, EStateM.run_get]
  dsimp only
  rw [containsLookup]
  cases t.sessions[target]? with
  | some taken => rfl
  | none =>
    simp only [Option.isSome_none, Bool.false_eq_true, if_false]
    rw [EStateM.run_bind, EStateM.run_get]
    dsimp only
    cases here : t.sessions[source]? with
    | some s => rfl
    | none => exact congrArg (EStateM.Result.error _) (dropMissing here)

theorem copyInPlace (t : SessionTable) (source target : String) :
    (Command.copy source target).CarriesOut t (t.copy source target) := by
  unfold Command.CarriesOut Command.copy
  rw [copyCases, EStateM.run_bind, EStateM.run_get]
  dsimp only
  cases t.sessions[source]? with
  | none => rfl
  | some s =>
    dsimp only
    rw [EStateM.run_bind, EStateM.run_get]
    dsimp only
    rw [containsLookup]
    cases t.sessions[target]? <;> rfl

end ScriptDebugger.SessionTable
