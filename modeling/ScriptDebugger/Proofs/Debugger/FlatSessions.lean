import ScriptDebugger.Proofs.Debugger.Alike

/-! Layers are never seen. Flattening the state of any session at any time changes no answer; what
starts from a state reads as that state did, and keeps reading so whatever is written elsewhere. -/
namespace ScriptDebugger

-- A request, or the flattening of a session's state in between.
inductive Event where
  | request (request : Request)
  | flatten (name : String)

def Event.request? : Event → Option Request
  | request r => some r
  | flatten _ => none

namespace Debugger

def flatten (d : Debugger) (name : String) : Debugger :=
  match d.session? name with
  | none => d
  | some s => d.withSession { s with snapshot := s.snapshot.flatten }

def replay (d : Debugger) : List Event → List (Result Answer)
  | [] => []
  | .request request :: rest => (d.handle request).1 :: (d.handle request).2.replay rest
  | .flatten name :: rest => (d.flatten name).replay rest

theorem flattenAlike {d c : Debugger} (same : d.Alike c) (name : String) :
    d.Alike (c.flatten name) := by
  unfold flatten
  cases here : c.session? name with
  | none => exact same
  | some s =>
    refine ⟨same.config,same.registry,same.table.chain,same.table.defaults,fun other => ?_⟩
    have related := same.table.sessions other
    rw [show (c.withSession { s with snapshot := s.snapshot.flatten }).table.sessions[other]? =
      if s.name = other then some { s with snapshot := s.snapshot.flatten } else c.session? other from
      sessionWithSession c _ other]
    split
    · next own =>
      have there : c.table.sessions[other]? = some s := by
        rw [← own, sessionName here]
        exact here
      rcases relCases related with ⟨_,right⟩ | ⟨r,t,left,right,alike⟩
      · rw [there] at right
        contradiction
      · rw [there] at right
        cases right
        rw [left]
        exact .some ⟨alike.name,alike.overrides,Snapshot.alikeTrans alike.snapshot
          (Snapshot.alikeSymm (Snapshot.flattenAlike s.snapshot)),alike.suspended⟩
    · exact related

theorem replayAlike {d c : Debugger} (same : d.Alike c) (events : List Event) :
    c.replay events = (d.serve (events.filterMap Event.request?)).1 := by
  induction events generalizing d c with
  | nil => rfl
  | cons event rest ih =>
    cases event with
    | flatten name => exact ih (flattenAlike same name)
    | request request =>
      obtain ⟨answer,next⟩ := handleAlike same request
      exact congrArg₂ List.cons answer.symm (ih next)

theorem copyReads {d : Debugger} {source target : String} {s : Session}
    (here : d.session? source = some s) (free : d.session? target = none) :
    ∃ t : Session, (d.handle (.copy source target)).2.session? target = some t ∧
      t.snapshot.Alike s.snapshot ∧ (d.handle (.copy source target)).2.session? source = some s := by
  have other : target ≠ source := by
    rintro rfl
    rw [here] at free
    contradiction
  rw [copyCases, here, free]
  refine ⟨.create target s.snapshot s.overrides,sessionOwn d rfl,Snapshot.forkAlike _,?_⟩
  exact (sessionOther d other).trans here

theorem newReads (d : Debugger) {names : List String} {name : String} (listed : name ∈ names) :
    ∃ t : Session, (d.handle (.newSessions names)).2.session? name = some t ∧
      t.snapshot.Alike d.table.chain := by
  have lookup := (d.table.lookupRenew names).2.2 name
  rw [if_pos listed] at lookup
  exact ⟨_,lookup,Snapshot.forkAlike _⟩

theorem madeReads {d : Debugger} {i : Invocation} (missing : d.session? i.session = none) :
    (d.workspace i).snapshot.Alike d.table.chain := by
  rw [workspace, SessionTable.getOrCreateOfMissing missing]
  exact Snapshot.forkAlike _

-- Nothing of the layers is seen: flattening changes no answer; a copy, a new session and a session
-- made on demand read what they start from; the engine of a run reads its own writes and else what
-- it was made over, whatever is asked meanwhile, and its session sees none of them before it ends;
-- and nothing asked of other sessions changes the chain or a session.
theorem layersAreNotSeen (d : Debugger) :
    (∀ events, d.replay events = (d.serve (events.filterMap Event.request?)).1) ∧
    (∀ source target s, d.session? source = some s → d.session? target = none →
      ∃ t : Session, (d.handle (.copy source target)).2.session? target = some t ∧
        t.snapshot.Alike s.snapshot ∧
        (d.handle (.copy source target)).2.session? source = some s) ∧
    (∀ names, ∀ name ∈ names, ∃ t : Session,
      (d.handle (.newSessions names)).2.session? name = some t ∧ t.snapshot.Alike d.table.chain) ∧
    (∀ i : Invocation, d.session? i.session = none →
      (d.workspace i).snapshot.Alike d.table.chain) ∧
    (∀ i e requests name, d.engineFor i = .ok e →
      (d.handle (.startDebug i)).2.follow i.session requests = some name →
      ∃ (s : Session) (run : SuspendedRun) (n : Nat),
        (d.serve (.startDebug i :: requests)).2.session? name = some s ∧
        s.suspended = some run ∧ run.engine.awake = Engine.executeNext^[n] e ∧
        (∀ key, ¬ Engine.Stored e n key →
          run.engine.ledger.get? key = (d.workspace i).snapshot.get? key) ∧
        (∀ hash, run.engine.ledger.contract? hash = (d.workspace i).snapshot.contract? hash) ∧
        s.snapshot = (d.historyOf i e requests).foldl (fun t w => w.onto t)
          (d.workspace i).snapshot ∧
        (run.engine.state.isTerminal = false →
          (d.historyOf i e requests).filterMap Write.run? = [])) ∧
    ∀ requests, (d.serve requests).2.table.chain = d.table.chain ∧
      ∀ name, (∀ request ∈ requests, name ∉ request.addresses) →
        (d.serve requests).2.session? name = d.session? name := by
  refine ⟨replayAlike (alikeRefl d),fun source target s => copyReads,fun names name => newReads d,
    fun i => madeReads,fun i e requests name ready kept => ?_,
    fun requests => ⟨serveChain d requests,fun name => serveElsewhere d⟩⟩
  obtain ⟨s,run,n,life,course,grows⟩ := lifeStarted ready kept
  obtain ⟨keys,contracts⟩ := Engine.baseReads (engineForFresh ready).2 course
  refine ⟨s,run,n,life.here,life.paused,course,keys,contracts,grows.ledger,fun alive => ?_⟩
  rw [grows.own, if_neg]
  rintro ⟨_,halted,_⟩
  simp [halted, VmState.isTerminal] at alive

end Debugger

end ScriptDebugger
