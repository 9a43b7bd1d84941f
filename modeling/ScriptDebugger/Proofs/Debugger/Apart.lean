import ScriptDebugger.Proofs.Debugger.Elsewhere
import ScriptDebugger.Proofs.Stepping.Marks

/-! Sessions do not interfere. What is asked of one session changes, outside of it, only the marks of
covered instructions, and no answer for another session reads those. So the answers for a session are
the same whatever is asked of another session in between. -/
namespace ScriptDebugger

-- The requests that concern one session and nothing beside it.
def Request.Of (name : String) : Request → Prop
  | newSessions names | deleteSessions names | timestamps names => ∀ other ∈ names, other = name
  | setTimestamp other _ | step other _ | settle other | storage other _ _ | inspect other _ =>
    other = name
  | invoke i | startDebug i => i.session = name
  | sessions | .rename _ _ | copy _ _ | registry _ => False

theorem Request.elsewhereOf {request : Request} {a b : String} (apart : a ≠ b)
    (own : request.Of a) : b ∉ request.addresses := by
  cases request with
  | newSessions names | deleteSessions names | timestamps names =>
    exact fun listed => apart (own b listed).symm
  | setTimestamp name time | step name mode | settle name =>
    rw [← (own : name = a)] at apart
    exact fun listed => apart (List.mem_singleton.mp listed).symm
  | invoke i | startDebug i =>
    rw [← (own : i.session = a)] at apart
    exact fun listed => apart (List.mem_singleton.mp listed).symm
  | storage | inspect => exact List.not_mem_nil
  | sessions | rename | copy | registry => exact own.elim

namespace EngineView

variable {r s : Registry}

theorem sourceAtAlike (same : r.Alike s) (contract : ContractHash) (position : Nat) :
    sourceAt? r contract position = sourceAt? s contract position := by
  unfold sourceAt?
  rw [Registry.profileAlike same]

theorem invocationStackAlike (same : r.Alike s) (v : EngineView) :
    v.invocationStack r = v.invocationStack s := by
  have each : describe r = describe s := by
    funext f
    simp only [describe, sourceAtAlike same]
  rw [invocationStack, each, invocationStack]

theorem descriptorsAlike (same : r.Alike s) (f : FrameView) : descriptors r f = descriptors s f := by
  unfold descriptors Registry.profile
  rw [Registry.profileAlike same]

end EngineView

theorem DebugReport.captureRegistry {r s : Registry} (same : r.Alike s) (v : EngineView)
    (names : Snapshot) (reason : StopReason) (max : Nat) :
    capture v r names reason max = capture v s names reason max := by
  unfold capture
  simp only [EngineView.sourceAtAlike same, EngineView.invocationStackAlike same]

theorem Inspection.lookAlike {r s : Registry} (same : r.Alike s) (v : EngineView)
    (look : Inspection) : look.look r v = look.look s v := by
  cases look with
  | named name frame =>
    simp only [Inspection.look, EngineView.findVariable, EngineView.descriptorsAlike same]
  | scope frame =>
    simp only [Inspection.look, EngineView.variablesAt, EngineView.descriptorsAlike same]
  | frames => simp only [Inspection.look, EngineView.invocationStackAlike same]
  | _ => rfl

namespace SessionTable

structure Agree (name : String) (t u : SessionTable) : Prop where
  chain : t.chain = u.chain
  defaults : t.defaults = u.defaults
  session : t.sessions[name]? = u.sessions[name]?

variable {name : String} {t u : SessionTable}

theorem putAgree (same : t.Agree name u) (s : Session) : (t.put s).Agree name (u.put s) := by
  refine ⟨same.chain,same.defaults,?_⟩
  rw [lookupPut, lookupPut, same.session]

theorem dropAgree (same : t.Agree name u) (gone : String) :
    (t.drop gone).Agree name (u.drop gone) := by
  refine ⟨same.chain,same.defaults,?_⟩
  rw [lookupDrop, lookupDrop, same.session]

theorem getOrCreateAgree (same : t.Agree name u) : t.getOrCreate name = u.getOrCreate name := by
  rw [getOrCreate, same.session, same.chain, same.defaults, getOrCreate]

theorem renewAgree (same : t.Agree name u) (names : List String) :
    (t.renew names).Agree name (u.renew names) := by
  refine List.foldl_rel same fun other _ x y related => ?_
  rw [related.chain, related.defaults]
  exact putAgree related _

def Told {α : Type} (name : String) (out other : α × SessionTable) : Prop :=
  out.1 = other.1 ∧ out.2.Agree name other.2

theorem deleteAgree (same : t.Agree name u) {names : List String}
    (own : ∀ other ∈ names, other = name) : Told name (t.delete names) (u.delete names) := by
  unfold delete
  refine List.foldl_rel ⟨rfl,same⟩ fun other listed out left told => ?_
  obtain rfl := own other listed
  dsimp only
  rw [told.1, containsLookup, containsLookup, told.2.session]
  exact ⟨rfl,dropAgree told.2 other⟩

theorem timestampsAgree (same : t.Agree name u) {names : List String}
    (own : ∀ other ∈ names, other = name) : Told name (t.timestamps names) (u.timestamps names) := by
  unfold timestamps
  refine List.foldl_rel ⟨rfl,same⟩ fun other listed out left told => ?_
  obtain rfl := own other listed
  dsimp only
  rw [told.1, getOrCreateAgree told.2]
  exact ⟨rfl,putAgree told.2 _⟩

end SessionTable

namespace Debugger

-- What the answers for one session depend on.
structure Agree (name : String) (d c : Debugger) : Prop where
  config : d.config = c.config
  registry : d.registry.Alike c.registry
  table : d.table.Agree name c.table

def Told (name : String) (out other : Result Answer × Debugger) : Prop :=
  out.1 = other.1 ∧ out.2.Agree name other.2

variable {name : String} {d c : Debugger}

theorem sessionAgree (same : d.Agree name c) : d.session? name = c.session? name :=
  same.table.session

theorem withSessionAgree (same : d.Agree name c) (s : Session) :
    (d.withSession s).Agree name (c.withSession s) :=
  ⟨same.config,same.registry,SessionTable.putAgree same.table s⟩

theorem namedAgree {α : Type} (same : d.Agree name c) (result : Result α) :
    d.named result = c.named result := by
  unfold named
  rw [same.table.chain]

theorem reportAgree (same : d.Agree name c) (e : Engine) (reason : StopReason) :
    d.report e reason = c.report e reason := by
  unfold report
  rw [same.config]
  exact DebugReport.captureRegistry same.registry _ _ _ _

theorem workspaceAgree {i : Invocation} (same : d.Agree i.session c) :
    d.workspace i = c.workspace i := SessionTable.getOrCreateAgree same.table

theorem engineForAgree {i : Invocation} (same : d.Agree i.session c) :
    d.engineFor i = c.engineFor i := by
  unfold engineFor
  rw [workspaceAgree same, same.config]

theorem drivenAgree (same : d.Agree name c) (s : Session) (mode : StepMode) :
    Told name (d.driven s mode) (c.driven s mode) := by
  unfold driven
  cases s.suspended with
  | none => exact ⟨rfl,same⟩
  | some paused =>
    dsimp only
    have resumed := @Run.resumeUnmarked d.registry c.registry ⟨paused.engine,d.registry.coverage⟩
      ⟨paused.engine,c.registry.coverage⟩ same.registry mode rfl
    generalize Run.resume d.registry mode ⟨paused.engine,d.registry.coverage⟩ = left at resumed ⊢
    generalize Run.resume c.registry mode ⟨paused.engine,c.registry.coverage⟩ = right at resumed ⊢
    cases left with
    | error cause =>
      cases right with
      | error other => cases resumed; exact ⟨rfl,same⟩
      | ok next => contradiction
    | ok next =>
      cases right with
      | error other => contradiction
      | ok other =>
        obtain ⟨reason,run⟩ := next
        obtain ⟨answer,last⟩ := other
        obtain ⟨rfl,engine⟩ := Prod.mk.inj (Except.ok.inj resumed)
        dsimp only at engine ⊢
        rw [← engine, reportAgree same]
        have covered : (d.withCoverage run.coverage).Agree name (c.withCoverage last.coverage) :=
          ⟨same.config,⟨same.registry.profiles,same.registry.breakpoints⟩,same.table⟩
        exact ⟨rfl,withSessionAgree covered _⟩

theorem existingAgree (same : d.Agree name c) {f g : Session → Result Answer × Debugger}
    (each : ∀ s, Told name (f s) (g s)) :
    Told name
      (match d.session? name with
        | none => (.error (.sessionNotFound name),d)
        | some s => f s)
      (match c.session? name with
        | none => (.error (.sessionNotFound name),c)
        | some s => g s) := by
  rw [sessionAgree same]
  cases c.session? name with
  | none => exact ⟨rfl,same⟩
  | some s => exact each s

theorem invokeAgree {i : Invocation} (same : d.Agree i.session c) :
    Told i.session (d.handle (.invoke i)) (c.handle (.invoke i)) := by
  rw [handleInvoke, handleInvoke, engineForAgree same, workspaceAgree same]
  cases c.engineFor i with
  | error cause => exact ⟨rfl,withSessionAgree same _⟩
  | ok e =>
    dsimp only
    rw [reportAgree same]
    exact ⟨rfl,withSessionAgree same _⟩

theorem startDebugAgree {i : Invocation} (same : d.Agree i.session c) :
    Told i.session (d.handle (.startDebug i)) (c.handle (.startDebug i)) := by
  rw [handleStartDebug, handleStartDebug, engineForAgree same, workspaceAgree same]
  cases c.engineFor i with
  | error cause => exact ⟨rfl,withSessionAgree same _⟩
  | ok e => exact drivenAgree (withSessionAgree same _) _ .resume

theorem inspectAgree (same : d.Agree name c) (look : Inspection) :
    Told name (d.handle (.inspect name look)) (c.handle (.inspect name look)) := by
  rw [handleInspect, handleInspect]
  refine existingAgree same fun s => ?_
  cases s.suspended with
  | none => exact ⟨rfl,same⟩
  | some paused =>
    dsimp only
    rw [namedAgree same, Inspection.lookAlike same.registry]
    exact ⟨rfl,same⟩

-- Two debuggers that agree on a session answer alike whatever concerns it, and still agree.
theorem handleAgree (same : d.Agree name c) {request : Request} (own : request.Of name) :
    Told name (d.handle request) (c.handle request) := by
  cases request with
  | newSessions names =>
    exact ⟨rfl,same.config,same.registry,SessionTable.renewAgree same.table names⟩
  | deleteSessions names =>
    obtain ⟨answers,table⟩ := SessionTable.deleteAgree same.table own
    exact ⟨congrArg (fun a => Except.ok (Answer.existed a)) answers,same.config,same.registry,table⟩
  | timestamps names =>
    obtain ⟨answers,table⟩ := SessionTable.timestampsAgree same.table own
    exact ⟨congrArg (fun a => Except.ok (Answer.timestamps a)) answers,same.config,same.registry,
      table⟩
  | setTimestamp other timestamp =>
    obtain rfl : other = name := own
    rw [handleSetTimestamp, handleSetTimestamp, SessionTable.setTimestamp,
      SessionTable.getOrCreateAgree same.table, SessionTable.setTimestamp]
    exact ⟨rfl,same.config,same.registry,SessionTable.putAgree same.table _⟩
  | invoke i =>
    obtain rfl : i.session = name := own
    exact invokeAgree same
  | startDebug i =>
    obtain rfl : i.session = name := own
    exact startDebugAgree same
  | step other mode =>
    obtain rfl : other = name := own
    rw [handleStep, handleStep]
    exact existingAgree same fun s => drivenAgree same s mode
  | settle other =>
    obtain rfl : other = name := own
    rw [handleSettle, handleSettle]
    exact existingAgree same fun s => ⟨rfl,withSessionAgree same s.settle⟩
  | storage other contract start =>
    obtain rfl : other = name := own
    rw [handleStorage, handleStorage]
    exact existingAgree same fun s => ⟨rfl,same⟩
  | inspect other look =>
    obtain rfl : other = name := own
    exact inspectAgree same look
  | sessions | rename | copy | registry => exact own.elim

theorem agreeRefl (name : String) (d : Debugger) : d.Agree name d :=
  ⟨rfl,⟨rfl,rfl⟩,rfl,rfl,rfl⟩

theorem drivenMarks (d : Debugger) (s : Session) (mode : StepMode) :
    ∃ coverage table, (d.driven s mode).2 = ⟨d.config,{ d.registry with coverage },table⟩ := by
  unfold driven
  split
  · exact ⟨d.registry.coverage,d.table,rfl⟩
  · split
    · exact ⟨d.registry.coverage,d.table,rfl⟩
    · exact ⟨_,_,rfl⟩

-- Outside of the table of sessions, what concerns a session leaves marks of coverage only.
theorem handleMarks (d : Debugger) {request : Request} (own : request.Of name) :
    ∃ coverage table, (d.handle request).2 = ⟨d.config,{ d.registry with coverage },table⟩ := by
  have still (table : SessionTable) : ∃ coverage table', ({ d with table } : Debugger) =
      ⟨d.config,{ d.registry with coverage },table'⟩ := ⟨d.registry.coverage,table,rfl⟩
  cases request with
  | newSessions | deleteSessions | timestamps | setTimestamp => exact still _
  | invoke i =>
    rw [handleInvoke]
    cases d.engineFor i <;> exact still _
  | startDebug i =>
    rw [handleStartDebug]
    cases d.engineFor i with
    | error cause => exact still _
    | ok e => exact drivenMarks (d.withSession _) _ .resume
  | step other mode =>
    rw [handleStep]
    cases d.session? other with
    | none => exact still _
    | some s => exact drivenMarks d s mode
  | settle other =>
    rw [handleSettle]
    cases d.session? other <;> exact still _
  | storage other contract start =>
    rw [handleStorage]
    cases d.session? other <;> exact still _
  | inspect other look =>
    rw [handleInspect]
    split
    · exact still _
    · split <;> exact still _
  | sessions | rename | copy | registry => exact own.elim

theorem handleApart (same : d.Agree name c) {other : String} (apart : other ≠ name)
    {request : Request} (own : request.Of other) : (d.handle request).2.Agree name c := by
  obtain ⟨coverage,table,out⟩ := handleMarks d own
  have elsewhere := handleElsewhere d request (Request.elsewhereOf apart own)
  refine ⟨?_,?_,?_,?_,?_⟩
  · rw [out]
    exact same.config
  · rw [out]
    exact ⟨same.registry.profiles,same.registry.breakpoints⟩
  · exact (handleChain d request).trans same.table.chain
  · exact (handleDefaults d request).trans same.table.defaults
  · exact elsewhere.trans same.table.session

-- The answers to the requests on the right, as those on the left are handled in between.
def overhear (d : Debugger) : List (Request ⊕ Request) → List (Result Answer)
  | [] => []
  | .inl request :: rest => (d.handle request).2.overhear rest
  | .inr request :: rest => (d.handle request).1 :: (d.handle request).2.overhear rest

theorem overhearAgree {other : String} (apart : other ≠ name) (same : d.Agree name c)
    {requests : List (Request ⊕ Request)}
    (left : ∀ request, .inl request ∈ requests → request.Of other)
    (right : ∀ request, .inr request ∈ requests → request.Of name) :
    d.overhear requests = (c.serve (requests.filterMap Sum.getRight?)).1 := by
  induction requests generalizing d c with
  | nil => rfl
  | cons head rest ih =>
    have onLeft := fun request inside => left request (.tail _ inside)
    have onRight := fun request inside => right request (.tail _ inside)
    cases head with
    | inl request =>
      exact ih (handleApart same apart (left request (.head _))) onLeft onRight
    | inr request =>
      obtain ⟨answer,next⟩ := handleAgree same (right request (.head _))
      exact congrArg₂ List.cons answer (ih next onLeft onRight)

-- Whatever is asked of one session, in whatever order, another is answered as if it were alone.
theorem sessionsApart (d : Debugger) {a b : String} (apart : a ≠ b)
    {requests : List (Request ⊕ Request)}
    (left : ∀ request, .inl request ∈ requests → request.Of a)
    (right : ∀ request, .inr request ∈ requests → request.Of b) :
    d.overhear requests = (d.serve (requests.filterMap Sum.getRight?)).1 :=
  overhearAgree apart (agreeRefl b d) left right

-- Both runs are stopped in the method, then the one is stepped on while the other one is deleted.
theorem sessionsApartPaused :
    let chain : Snapshot := .deploy .empty ⟨1,.zero,"Counter",[0x21,0x40],[⟨"main",0,0⟩]⟩
    let d : Debugger :=
      { create chain { defaultTimestamp := some 7 } with
        registry := { breakpoints := (Breakpoints.addAssembly ∅ .zero [1]).2 } }
    let i (session : String) : Invocation :=
      { session, writeback := true, contract := .zero, method := "main", args := [], signers := [] }
    let requests : List (Request ⊕ Request) :=
      [.inr (.startDebug (i "b")),.inl (.startDebug (i "a")),.inr (.step "b" .stepOverAssembly),
        .inl (.deleteSessions ["a"]),.inr (.inspect "b" .frames)]
    let stopped (requests : List Request) (session : String) : Option VmState :=
      ((d.serve requests).2.run? session).map fun run => run.engine.state
    stopped [.startDebug (i "b")] "b" = some .suspended ∧
      stopped [.startDebug (i "b"),.startDebug (i "a")] "a" = some .suspended ∧
      "a" ≠ "b" ∧ (∀ request, .inl request ∈ requests → request.Of "a") ∧
      (∀ request, .inr request ∈ requests → request.Of "b") ∧
      d.overhear requests =
        (d.serve [.startDebug (i "b"),.step "b" .stepOverAssembly,.inspect "b" .frames]).1 := by
  intro chain d i requests stopped
  have apart : "a" ≠ "b" := by decide
  have left : ∀ request, .inl request ∈ requests → request.Of "a" := by
    simp [requests, Request.Of, i]
  have right : ∀ request, .inr request ∈ requests → request.Of "b" := by
    simp [requests, Request.Of, i]
  exact ⟨by decide +kernel,by decide +kernel,apart,left,right,sessionsApart d apart left right⟩

end Debugger

end ScriptDebugger
