import ScriptDebugger.Proofs.Debugger.Apart
import ScriptDebugger.Proofs.Debugger.Life
import ScriptDebugger.Proofs.Ledger.Reading
import ScriptDebugger.Proofs.Results

/-! Requests about sessions that fail, and why they do. A rename or a copy that fails changes nothing, and
neither does a step or an inspection; an invocation that fails has at most made the session it names.
What was paused before goes on as if nothing had been asked. -/
namespace ScriptDebugger

-- The target is unknown to the state, or has no method of this name for as many arguments.
inductive Invocation.Unresolved (i : Invocation) (s : Snapshot) : Error → Prop where
  | contract (unknown : s.contract? i.contract = none) :
      Unresolved i s (.contractNotFound i.contract)
  | method {target : Contract} (deployed : s.contract? i.contract = some target)
      (unlisted : target.method? i.method i.args.length = none) :
      Unresolved i s (.methodNotFound i.contract i.method i.args.length)

theorem Invocation.resolveFails (i : Invocation) (s : Snapshot) (cause : Error) :
    resolve s i.contract i.method i.args = .error cause ↔ i.Unresolved s cause := by
  unfold resolve
  cases found : s.contract? i.contract with
  | none =>
    constructor
    · rintro ⟨⟩
      exact .contract found
    · rintro (_ | ⟨deployed,_⟩)
      · rfl
      · rw [found] at deployed
        contradiction
  | some target =>
    dsimp only
    cases listed : target.method? i.method i.args.length with
    | none =>
      constructor
      · rintro ⟨⟩
        exact .method found listed
      · rintro (unknown | _)
        · rw [found] at unknown
          contradiction
        · rfl
    | some entry =>
      refine iff_of_false nofun ?_
      rintro (unknown | ⟨deployed,unlisted⟩)
      · rw [found] at unknown
        contradiction
      · rw [found] at deployed
        cases deployed
        rw [listed] at unlisted
        contradiction

namespace Debugger

-- Why the run of a session cannot be driven.
inductive Unready (d : Debugger) (name : String) : Error → Prop where
  | missing (gone : d.session? name = none) : Unready d name (.sessionNotFound name)
  | idle {s : Session} (here : d.session? name = some s) (runless : s.suspended = none) :
      Unready d name (.noDebugInProgress name)
  | halted {run : SuspendedRun} (held : d.run? name = some run) (ended : run.engine.state = .halted) :
      Unready d name .engineHalted
  | faulted {run : SuspendedRun} (held : d.run? name = some run)
      (ended : run.engine.state = .faulted) : Unready d name .engineFaulted

structure SameBut (d : Debugger) (names : List String) (e : Debugger) : Prop where
  config : e.config = d.config
  registry : e.registry = d.registry
  chain : e.table.chain = d.table.chain
  defaults : e.table.defaults = d.table.defaults
  others : ∀ name ∉ names, e.session? name = d.session? name

structure Opened (d : Debugger) (name : String) (e : Debugger) : Prop where
  kept : (d.session? name).isSome → e = d
  made : d.session? name = none → d.SameBut [name] e ∧
    e.session? name = some (.create name d.table.chain d.table.defaults)
  goesOn : ∀ other requests, (d.session? other).isSome → (∀ request ∈ requests, request.Of other) →
    (e.serve requests).1 = (d.serve requests).1

structure Moved (d : Debugger) (source target : String) (s : Session) (e : Debugger) : Prop where
  beside : d.SameBut [source,target] e
  gone : e.session? source = none
  arrived : e.session? target = some { s with name := target }

structure Copied (d : Debugger) (target : String) (s : Session) (e : Debugger) : Prop where
  beside : d.SameBut [target] e
  arrived : ∃ t : Session, e.session? target = some t ∧ t.snapshot.Alike s.snapshot ∧
    t.overrides = s.overrides ∧ t.suspended = none

theorem withSessionHeld {d : Debugger} {s : Session} (here : d.session? s.name = some s) :
    d.withSession s = d := by
  have table : d.table.put s = d.table := by
    refine SessionTable.sameLookups rfl rfl fun name => ?_
    rw [SessionTable.lookupPut]
    split
    · next same => rw [← same, ← here, session?]
    · rfl
  rw [withSession, table]

theorem sameButPut (d : Debugger) {s : Session} {name : String} (own : s.name = name) :
    d.SameBut [name] (d.withSession s) := by
  refine ⟨rfl,rfl,rfl,rfl,fun other apart => sessionOther d ?_⟩
  rintro rfl
  exact apart (List.mem_singleton.mpr own)

theorem serveAgree {d c : Debugger} {name : String} (same : d.Agree name c) {requests : List Request}
    (own : ∀ request ∈ requests, request.Of name) : (d.serve requests).1 = (c.serve requests).1 := by
  induction requests generalizing d c with
  | nil => rfl
  | cons request rest ih =>
    obtain ⟨answer,next⟩ := handleAgree same (own request (.head _))
    exact congrArg₂ List.cons answer (ih next fun other inside => own other (.tail _ inside))

theorem openedWorkspace (d : Debugger) (i : Invocation) :
    d.Opened i.session (d.withSession (d.workspace i)) := by
  have own := workspaceName d i
  have kept : (d.session? i.session).isSome → d.withSession (d.workspace i) = d := by
    intro some
    obtain ⟨s,here⟩ := Option.isSome_iff_exists.mp some
    rw [workspaceOfFound here]
    exact withSessionHeld (sessionName here ▸ here)
  refine ⟨kept,fun missing => ⟨sameButPut d own,?_⟩,fun other requests some own' => ?_⟩
  · rw [sessionOwn d own]
    exact congrArg _ (SessionTable.getOrCreateOfMissing missing)
  · cases decEq other i.session with
    | isTrue same => rw [kept (same ▸ some)]
    | isFalse apart =>
      have others : (d.withSession (d.workspace i)).session? other = d.session? other :=
        sessionOther d (own ▸ Ne.symm apart)
      have agrees : (d.withSession (d.workspace i)).Agree other d :=
        ⟨rfl,⟨rfl,rfl⟩,⟨rfl,rfl,others⟩⟩
      exact serveAgree agrees own'

theorem engineForFails (d : Debugger) (i : Invocation) (cause : Error) :
    d.engineFor i = .error cause ↔ i.Unresolved (d.workspace i).snapshot cause := by
  rw [← i.resolveFails]
  unfold engineFor Invocation.prepare
  cases Invocation.resolve (d.workspace i).snapshot i.contract i.method i.args with
  | error other =>
    rw [Except.error.injEq]
    exact refusedHead _ cause
  | ok target => exact iff_of_false nofun nofun

theorem invokeFails (d : Debugger) (i : Invocation) (cause : Error) (e : Debugger) :
    d.handle (.invoke i) = (.error cause,e) ↔
      i.Unresolved (d.workspace i).snapshot cause ∧ e = d.withSession (d.workspace i) := by
  rw [← engineForFails, handleInvoke]
  cases d.engineFor i with
  | error other => simp [eq_comm]
  | ok engine => simp

theorem startDebugFails (d : Debugger) (i : Invocation) (cause : Error) (e : Debugger) :
    d.handle (.startDebug i) = (.error cause,e) ↔
      i.Unresolved (d.workspace i).snapshot cause ∧ e = d.withSession (d.workspace i) := by
  rw [← engineForFails, handleStartDebug]
  cases ready : d.engineFor i with
  | error other => simp [eq_comm]
  | ok engine =>
    let begun : SuspendedRun := { engine, writeback := i.writeback }
    have alive : begun.engine.state.isTerminal = false := by
      rw [(engineForFresh ready).1]
      rfl
    have held : ((d.workspace i).beginDebug engine i.writeback).suspended = some begun := rfl
    dsimp only
    rw [drivenOfAlive _ .resume held alive]
    simp

theorem runHeld {d : Debugger} {name : String} {run : SuspendedRun} (held : d.run? name = some run) :
    ∃ s : Session, d.session? name = some s ∧ s.suspended = some run :=
  Option.bind_eq_some_iff.mp held

theorem stepUnready {d : Debugger} {name : String} {cause : Error} (mode : StepMode)
    (unready : d.Unready name cause) : d.handle (.step name mode) = (.error cause,d) := by
  rw [handleStep]
  cases unready with
  | missing gone => rw [gone]
  | idle here runless => simp only [here, driven, runless, sessionName here]
  | halted held ended =>
    obtain ⟨s,here,paused⟩ := runHeld held
    rw [here]
    exact (drivenOfTerminal d mode paused (by rw [ended]; rfl)).trans (by rw [if_pos ended])
  | faulted held ended =>
    obtain ⟨s,here,paused⟩ := runHeld held
    rw [here]
    exact (drivenOfTerminal d mode paused (by rw [ended]; rfl)).trans (by rw [ended]; rfl)

theorem unreadyOrAlive (d : Debugger) (name : String) :
    (∃ cause, d.Unready name cause) ∨ ∃ (s : Session) (run : SuspendedRun),
      d.session? name = some s ∧ s.suspended = some run ∧ run.engine.state.isTerminal = false := by
  cases here : d.session? name with
  | none => exact .inl ⟨_,.missing here⟩
  | some s =>
    cases paused : s.suspended with
    | none => exact .inl ⟨_,.idle here paused⟩
    | some run =>
      have held : d.run? name = some run := by
        rw [run?, here]
        exact paused
      cases state : run.engine.state with
      | halted => exact .inl ⟨_,.halted held state⟩
      | faulted => exact .inl ⟨_,.faulted held state⟩
      | running | suspended => exact .inr ⟨s,run,rfl,paused,by rw [state]; rfl⟩

theorem stepFails (d : Debugger) (name : String) (mode : StepMode) (cause : Error) (e : Debugger) :
    d.handle (.step name mode) = (.error cause,e) ↔ d.Unready name cause ∧ e = d := by
  constructor
  · intro failed
    rcases unreadyOrAlive d name with ⟨other,unready⟩ | ⟨s,run,here,paused,alive⟩
    · rw [stepUnready mode unready] at failed
      cases failed
      exact ⟨unready,rfl⟩
    · have goes := drivenOfAlive d mode paused alive
      rw [handleStep, here] at failed
      cases goes.symm.trans failed
  · rintro ⟨unready,rfl⟩
    exact stepUnready mode unready

theorem inspectKeeps (d : Debugger) (name : String) (look : Inspection) :
    (d.handle (.inspect name look)).2 = d := by
  rw [handleInspect]
  split
  · rfl
  · split <;> rfl

theorem inspectRunless {d : Debugger} {name : String} (runless : d.run? name = none)
    (look : Inspection) :
    ∃ cause, d.Unready name cause ∧ d.handle (.inspect name look) = (.error cause,d) := by
  rw [handleInspect]
  cases here : d.session? name with
  | none => exact ⟨_,.missing here,rfl⟩
  | some s =>
    have idle : s.suspended = none := by
      rw [run?, here] at runless
      exact runless
    refine ⟨_,.idle here idle,?_⟩
    simp only [idle, sessionName here]

section Naming

variable {d e : Debugger} {source target : String} {s : Session} {cause : Error}

theorem renameFails (failed : d.handle (.rename source target) = (.error cause,e)) : e = d := by
  rw [renameCases] at failed
  split at failed <;> cases failed <;> rfl

theorem renameDone : (∃ e, d.handle (.rename source target) = (.ok .done,e)) ↔
    d.session? target = none ∧ (d.session? source).isSome := by
  rw [renameCases]
  cases d.session? target with
  | some taken => simp
  | none => cases d.session? source <;> simp

theorem renameMoves (here : d.session? source = some s)
    (done : d.handle (.rename source target) = (.ok .done,e)) : d.Moved source target s e := by
  have free := (renameDone.mp ⟨e,done⟩).1
  have apart : target ≠ source := by
    rintro rfl
    rw [here] at free
    contradiction
  rw [renameCases, free, here] at done
  cases done
  have lookup := SessionTable.lookupPut (d.table.drop source) { s with name := target }
  refine ⟨⟨rfl,rfl,rfl,rfl,fun name other => ?_⟩,?_,?_⟩
  · simp only [List.mem_cons, List.not_mem_nil, or_false, not_or] at other
    exact (lookup name).trans ((if_neg (Ne.symm other.2)).trans
      ((SessionTable.lookupDrop d.table source name).trans (if_neg (Ne.symm other.1))))
  · exact (lookup source).trans ((if_neg apart).trans
      ((SessionTable.lookupDrop d.table source source).trans (if_pos rfl)))
  · exact (lookup target).trans (if_pos rfl)

theorem copyFails (failed : d.handle (.copy source target) = (.error cause,e)) : e = d := by
  rw [copyCases] at failed
  split at failed <;> cases failed <;> rfl

theorem copyDone : (∃ e, d.handle (.copy source target) = (.ok .done,e)) ↔
    (d.session? source).isSome ∧ d.session? target = none := by
  rw [copyCases]
  cases d.session? source with
  | none => simp
  | some s => cases d.session? target <;> simp

theorem copyMakes (here : d.session? source = some s)
    (done : d.handle (.copy source target) = (.ok .done,e)) : d.Copied target s e := by
  have free := (copyDone.mp ⟨e,done⟩).2
  rw [copyCases, here, free] at done
  cases done
  exact ⟨sameButPut d rfl,_,sessionOwn d rfl,Snapshot.forkAlike s.snapshot,rfl,rfl⟩

end Naming

-- Requests that fail, and for the two that move sessions about, when they do not and what they do then.
theorem failuresLeaveSessions (d : Debugger) :
    (∀ source target,
      (∀ cause e, d.handle (.rename source target) = (.error cause,e) → e = d) ∧
      ((∃ e, d.handle (.rename source target) = (.ok .done,e)) ↔
        d.session? target = none ∧ (d.session? source).isSome) ∧
      ∀ s e, d.session? source = some s → d.handle (.rename source target) = (.ok .done,e) →
        d.Moved source target s e) ∧
    (∀ source target,
      (∀ cause e, d.handle (.copy source target) = (.error cause,e) → e = d) ∧
      ((∃ e, d.handle (.copy source target) = (.ok .done,e)) ↔
        (d.session? source).isSome ∧ d.session? target = none) ∧
      ∀ s e, d.session? source = some s → d.handle (.copy source target) = (.ok .done,e) →
        d.Copied target s e) ∧
    (∀ i, ∀ request ∈ [Request.invoke i,.startDebug i],
      (∀ cause, (∃ e, d.handle request = (.error cause,e)) ↔
        i.Unresolved (d.workspace i).snapshot cause) ∧
      ∀ cause e, d.handle request = (.error cause,e) → d.Opened i.session e) ∧
    (∀ name mode cause e, d.handle (.step name mode) = (.error cause,e) ↔
      d.Unready name cause ∧ e = d) ∧
    ∀ name look, (d.handle (.inspect name look)).2 = d ∧
      (d.run? name = none → ∃ cause, d.Unready name cause ∧
        d.handle (.inspect name look) = (.error cause,d)) := by
  refine ⟨fun source target => ⟨fun _ _ => renameFails,renameDone,fun _ _ => renameMoves⟩,
    fun source target => ⟨fun _ _ => copyFails,copyDone,fun _ _ => copyMakes⟩,
    fun i request listed => ?_,stepFails d,
    fun name look => ⟨inspectKeeps d name look,fun runless => inspectRunless runless look⟩⟩
  have fails (cause : Error) (e : Debugger) : d.handle request = (.error cause,e) ↔
      i.Unresolved (d.workspace i).snapshot cause ∧ e = d.withSession (d.workspace i) := by
    simp only [List.mem_cons, List.not_mem_nil, or_false] at listed
    rcases listed with rfl | rfl
    · exact invokeFails d i cause e
    · exact startDebugFails d i cause e
  refine ⟨fun cause => ?_,fun cause e failed => ?_⟩
  · simp only [fails, exists_and_left, exists_eq, and_true]
  · rw [((fails cause e).mp failed).2]
    exact openedWorkspace d i

end Debugger

end ScriptDebugger
