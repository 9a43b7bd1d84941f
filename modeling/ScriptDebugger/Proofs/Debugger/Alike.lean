import ScriptDebugger.Proofs.Debugger.Life
import ScriptDebugger.Proofs.Stepping.Rebase

/-! Debuggers that only their layers tell apart. Their sessions read the same under every name, and
the engines of their runs are the same over layers that read the same. No request tells two such
debuggers apart, and none leads to two that are not alike. -/
namespace ScriptDebugger

theorem relCases {α β : Type} {R : α → β → Prop} {a : Option α} {b : Option β}
    (related : Option.Rel R a b) :
    (a = none ∧ b = none) ∨ ∃ x y, a = some x ∧ b = some y ∧ R x y := by
  cases related with
  | none => exact .inl ⟨rfl,rfl⟩
  | some related => exact .inr ⟨_,_,rfl,rfl,related⟩

inductive SameResult {α β : Type} (R : α → β → Prop) : Result α → Result β → Prop
  | error (cause : Error) : SameResult R (.error cause) (.error cause)
  | ok {x : α} {y : β} (related : R x y) : SameResult R (.ok x) (.ok y)

namespace SuspendedRun

def Alike (a b : SuspendedRun) : Prop :=
  ∃ below, Engine.Rebases below a.engine ∧ b = { a with engine := a.engine.rebase below }

theorem alikeRefl (a : SuspendedRun) : a.Alike a :=
  ⟨a.engine.ledger.below,Snapshot.alikeRefl _,rfl⟩

end SuspendedRun

namespace Session

structure Alike (s t : Session) : Prop where
  name : s.name = t.name
  overrides : s.overrides = t.overrides
  snapshot : s.snapshot.Alike t.snapshot
  suspended : Option.Rel SuspendedRun.Alike s.suspended t.suspended

theorem alikeRefl (s : Session) : s.Alike s := by
  refine ⟨rfl,rfl,Snapshot.alikeRefl _,?_⟩
  cases s.suspended with
  | none => exact .none
  | some run => exact .some run.alikeRefl

theorem createAlike (name : String) {s t : Snapshot} (same : s.Alike t) (overrides : Overrides) :
    (create name s overrides).Alike (create name t overrides) :=
  ⟨rfl,rfl,Snapshot.alikeTrans (Snapshot.forkAlike s)
    (Snapshot.alikeTrans same (Snapshot.alikeSymm (Snapshot.forkAlike t))),.none⟩

theorem writeBackAlike {s t : Session} (same : s.Alike t) {l m : Snapshot} (top : l.top = m.top) :
    (s.writeBack l).Alike (t.writeBack m) :=
  ⟨same.name,same.overrides,Snapshot.commitAlike top same.snapshot,same.suspended⟩

theorem beginAlike {s t : Session} (same : s.Alike t) {e f : Engine}
    (engines : ∃ below, Engine.Rebases below e ∧ f = e.rebase below) (writeback : Bool) :
    (s.beginDebug e writeback).Alike (t.beginDebug f writeback) := by
  obtain ⟨below,reads,rfl⟩ := engines
  exact ⟨same.name,same.overrides,same.snapshot,.some ⟨below,reads,rfl⟩⟩

theorem settleAlike {s t : Session} (same : s.Alike t) : s.settle.Alike t.settle := by
  have runs := same.suspended
  unfold settle
  rcases relCases runs with ⟨left,right⟩ | ⟨run,other,left,right,below,reads,rfl⟩
  · rw [left, right]
    exact same
  · rw [left, right]
    dsimp only
    split
    · next commits =>
      rw [if_pos (by exact commits)]
      exact ⟨same.name,same.overrides,Snapshot.commitAlike rfl same.snapshot,
        .some ⟨below,reads,rfl⟩⟩
    · next keeps =>
      rw [if_neg (by exact keeps)]
      exact same

end Session

namespace SessionTable

structure Alike (t u : SessionTable) : Prop where
  chain : t.chain = u.chain
  defaults : t.defaults = u.defaults
  sessions : ∀ name : String, Option.Rel Session.Alike (t.sessions[name]?) (u.sessions[name]?)

variable {t u : SessionTable}

theorem alikeRefl (t : SessionTable) : t.Alike t := by
  refine ⟨rfl,rfl,fun name => ?_⟩
  cases t.sessions[name]? with
  | none => exact .none
  | some s => exact .some s.alikeRefl

theorem putAlike (same : t.Alike u) {s r : Session} (put : s.Alike r) :
    (t.put s).Alike (u.put r) := by
  refine ⟨same.chain,same.defaults,fun name => ?_⟩
  rw [lookupPut, lookupPut, put.name]
  split
  · exact .some put
  · exact same.sessions name

theorem dropAlike (same : t.Alike u) (gone : String) : (t.drop gone).Alike (u.drop gone) := by
  refine ⟨same.chain,same.defaults,fun name => ?_⟩
  rw [lookupDrop, lookupDrop]
  split
  · exact .none
  · exact same.sessions name

theorem containsAlike (same : t.Alike u) (name : String) :
    t.sessions.contains name = u.sessions.contains name := by
  rw [containsLookup, containsLookup]
  rcases relCases (same.sessions name) with ⟨left,right⟩ | ⟨s,r,left,right,_⟩
  · rw [left, right]
  · rw [left, right]
    rfl

theorem getOrCreateAlike (same : t.Alike u) (name : String) :
    (t.getOrCreate name).Alike (u.getOrCreate name) := by
  rcases relCases (same.sessions name) with ⟨left,right⟩ | ⟨s,r,left,right,alike⟩
  · rw [getOrCreateOfMissing left, getOrCreateOfMissing right, same.chain, same.defaults]
    exact Session.alikeRefl _
  · rw [getOrCreateOfFound left, getOrCreateOfFound right]
    exact alike

theorem renewAlike (same : t.Alike u) (names : List String) :
    (t.renew names).Alike (u.renew names) := by
  induction names generalizing t u with
  | nil => exact same
  | cons name rest ih =>
    have created : (Session.create name t.chain t.defaults).Alike
        (Session.create name u.chain u.defaults) := by
      rw [same.chain, same.defaults]
      exact Session.alikeRefl _
    exact ih (putAlike same created)

theorem deleteAlikeFrom (same : t.Alike u) (names : List String)
    (answers : Std.ExtTreeMap String Bool) :
    let out (t : SessionTable) := names.foldl (fun (answers, t) name =>
      (answers.insert name (t.sessions.contains name),SessionTable.drop t name)) (answers,t)
    (out t).1 = (out u).1 ∧ (out t).2.Alike (out u).2 := by
  induction names generalizing t u answers with
  | nil => exact ⟨rfl,same⟩
  | cons name rest ih =>
    have next := ih (dropAlike same name) (answers.insert name (t.sessions.contains name))
    simp only [List.foldl_cons]
    rwa [← containsAlike same name]

theorem timestampsAlikeFrom (same : t.Alike u) (names : List String)
    (answers : Std.ExtTreeMap String (Option Nat)) :
    let out (t : SessionTable) := names.foldl (fun (answers, t) name =>
      let s := SessionTable.getOrCreate t name
      (answers.insert name s.overrides.timestamp,t.put s)) (answers,t)
    (out t).1 = (out u).1 ∧ (out t).2.Alike (out u).2 := by
  induction names generalizing t u answers with
  | nil => exact ⟨rfl,same⟩
  | cons name rest ih =>
    have made := getOrCreateAlike same name
    have next := ih (putAlike same made)
      (answers.insert name (t.getOrCreate name).overrides.timestamp)
    simp only [List.foldl_cons]
    rwa [← made.overrides]

theorem namesAlike (same : t.Alike u) : t.names = u.names := by
  have marks : t.sessions.map (fun _ _ => ()) = u.sessions.map (fun _ _ => ()) := by
    apply Std.ExtTreeMap.ext_getElem?
    intro name
    rw [Std.ExtTreeMap.getElem?_map, Std.ExtTreeMap.getElem?_map]
    rcases relCases (same.sessions name) with ⟨left,right⟩ | ⟨s,r,left,right,_⟩
    · rw [left, right]
    · rw [left, right]
      rfl
  have keys := congrArg Std.ExtTreeMap.keys marks
  rwa [Std.ExtTreeMap.keys_map, Std.ExtTreeMap.keys_map] at keys

theorem renameAlike (same : t.Alike u) (source target : String) :
    SameResult Alike (t.rename source target) (u.rename source target) := by
  rw [renameCases, renameCases, ← containsLookup, ← containsLookup, containsAlike same]
  split
  · exact .error _
  · rcases relCases (same.sessions source) with ⟨left,right⟩ | ⟨s,r,left,right,alike⟩
    · rw [left, right]
      exact .error _
    · rw [left, right]
      exact .ok (putAlike (dropAlike same source)
        ⟨rfl,alike.overrides,alike.snapshot,alike.suspended⟩)

theorem copyAlike (same : t.Alike u) (source target : String) :
    SameResult Alike (t.copy source target) (u.copy source target) := by
  rw [copyCases, copyCases, ← containsLookup, ← containsLookup, containsAlike same]
  rcases relCases (same.sessions source) with ⟨left,right⟩ | ⟨s,r,left,right,alike⟩
  · rw [left, right]
    exact .error _
  · rw [left, right]
    dsimp only
    split
    · exact .error _
    · rw [alike.overrides]
      exact .ok (putAlike same (Session.createAlike target alike.snapshot r.overrides))

end SessionTable

theorem DebugReport.captureAlike (v : EngineView) (r : Registry) {names others : Snapshot}
    (same : names.Alike others) (reason : StopReason) (max : Nat) :
    capture v r names reason max = capture v r others reason max := by
  unfold capture
  simp only [same.contracts]

namespace Debugger

structure Alike (d c : Debugger) : Prop where
  config : d.config = c.config
  registry : d.registry = c.registry
  table : d.table.Alike c.table

def SameOutcome (a b : Result Answer × Debugger) : Prop := a.1 = b.1 ∧ a.2.Alike b.2

variable {d c : Debugger}

theorem alikeRefl (d : Debugger) : d.Alike d := ⟨rfl,rfl,d.table.alikeRefl⟩

theorem withSessionAlike (same : d.Alike c) {s r : Session} (alike : s.Alike r) :
    (d.withSession s).Alike (c.withSession r) :=
  ⟨same.config,same.registry,SessionTable.putAlike same.table alike⟩

theorem withTableAlike (same : d.Alike c) {t u : SessionTable} (alike : t.Alike u) :
    ({ d with table := t } : Debugger).Alike { c with table := u } :=
  ⟨same.config,same.registry,alike⟩

theorem workspaceAlike (same : d.Alike c) (i : Invocation) :
    (d.workspace i).Alike (c.workspace i) :=
  SessionTable.getOrCreateAlike same.table i.session

theorem namedAlike {α : Type} (same : d.Alike c) (result : Result α) :
    d.named result = c.named result := by
  unfold named
  rw [same.table.chain]

theorem reportAlike (same : d.Alike c) {below : List Layer} {e : Engine}
    (reads : Engine.Rebases below e) (reason : StopReason) :
    d.report e reason = c.report (e.rebase below) reason := by
  unfold report
  rw [same.config, same.registry, Engine.viewRebase]
  exact DebugReport.captureAlike _ _ (Snapshot.alikeSymm (Engine.rebasedReads reads)) _ _

theorem engineForAlike (same : d.Alike c) (i : Invocation) :
    SameResult (fun e f => ∃ below, Engine.Rebases below e ∧ f = e.rebase below)
      (d.engineFor i) (c.engineFor i) := by
  have workspace := workspaceAlike same i
  have resolved : Invocation.resolve (c.workspace i).snapshot i.contract i.method i.args =
      Invocation.resolve (d.workspace i).snapshot i.contract i.method i.args := by
    unfold Invocation.resolve
    rw [workspace.snapshot.contracts]
  unfold engineFor Invocation.prepare
  rw [resolved, ← workspace.overrides, ← same.config]
  cases Invocation.resolve (d.workspace i).snapshot i.contract i.method i.args with
  | error cause => exact .error cause
  | ok target =>
    refine .ok ⟨(c.workspace i).snapshot.layers,?_,rfl⟩
    exact Snapshot.alikeTrans (Snapshot.forkAlike _)
      (Snapshot.alikeTrans (Snapshot.alikeSymm workspace.snapshot)
        (Snapshot.alikeSymm (Snapshot.forkAlike _)))

theorem drivenAlike (same : d.Alike c) {s r : Session} (alike : s.Alike r) (mode : StepMode) :
    SameOutcome (d.driven s mode) (c.driven r mode) := by
  unfold driven
  rcases relCases alike.suspended with ⟨left,right⟩ | ⟨run,other,left,right,below,reads,rfl⟩
  · rw [left, right, alike.name]
    exact ⟨rfl,same⟩
  · rw [left, right]
    dsimp only
    have resumed := @Run.resumeRebase below ⟨run.engine,d.registry.coverage⟩ d.registry mode reads
    rw [← same.registry]
    rw [show (⟨run.engine.rebase below,d.registry.coverage⟩ : Run) =
      Run.rebase below ⟨run.engine,d.registry.coverage⟩ from rfl, resumed]
    cases out : Run.resume d.registry mode ⟨run.engine,d.registry.coverage⟩ with
    | error cause => exact ⟨rfl,same⟩
    | ok next =>
      have reads' := Run.rebasesFollows (Run.followsResume out) reads
      refine ⟨?_,?_⟩
      · exact congrArg (fun r => Except.ok (Answer.report r)) (reportAlike same reads' next.1)
      · apply withSessionAlike
        · exact ⟨same.config,
            congrArg (fun r : Registry => { r with coverage := next.2.coverage }) same.registry,
            same.table⟩
        · exact Session.settleAlike
            ⟨alike.name,alike.overrides,alike.snapshot,.some ⟨below,reads',rfl⟩⟩

theorem existingAlike (same : d.Alike c) (name : String)
    {f g : Session → Result Answer × Debugger}
    (each : ∀ s r : Session, s.Alike r → SameOutcome (f s) (g r)) :
    SameOutcome
      (match d.session? name with
        | none => (.error (.sessionNotFound name),d)
        | some s => f s)
      (match c.session? name with
        | none => (.error (.sessionNotFound name),c)
        | some r => g r) := by
  rcases relCases (same.table.sessions name) with ⟨left,right⟩ | ⟨s,r,left,right,alike⟩
  · rw [session?, session?, left, right]
    exact ⟨rfl,same⟩
  · rw [session?, session?, left, right]
    exact each s r alike

theorem replacedAlike (same : d.Alike c) {left right : Result SessionTable} :
    SameResult SessionTable.Alike left right → SameOutcome
      (match left with
        | .error cause => (.error cause,d)
        | .ok table => (.ok .done,{ d with table }))
      (match right with
        | .error cause => (.error cause,c)
        | .ok table => (.ok .done,{ c with table })) := by
  intro tables
  cases tables with
  | error cause => exact ⟨rfl,same⟩
  | ok table => exact ⟨rfl,withTableAlike same table⟩

theorem invokeAlike (same : d.Alike c) (i : Invocation) :
    SameOutcome (d.handle (.invoke i)) (c.handle (.invoke i)) := by
  have workspace := workspaceAlike same i
  have ready := engineForAlike same i
  rw [handleInvoke, handleInvoke]
  generalize d.engineFor i = left at ready ⊢
  generalize c.engineFor i = right at ready ⊢
  cases ready with
  | error cause => exact ⟨rfl,withSessionAlike same workspace⟩
  | ok ready =>
    obtain ⟨below,reads,rfl⟩ := ready
    have reads' := Engine.rebasesExecute reads
    dsimp only
    rw [Engine.executeRebase reads]
    refine ⟨congrArg (fun r => Except.ok (Answer.report r)) (reportAlike same reads' .none),?_⟩
    apply withSessionAlike same
    split
    · next commits =>
      rw [if_pos (by exact commits)]
      exact Session.writeBackAlike workspace rfl
    · next keeps =>
      rw [if_neg (by exact keeps)]
      exact workspace

theorem startDebugAlike (same : d.Alike c) (i : Invocation) :
    SameOutcome (d.handle (.startDebug i)) (c.handle (.startDebug i)) := by
  have workspace := workspaceAlike same i
  have ready := engineForAlike same i
  rw [handleStartDebug, handleStartDebug]
  generalize d.engineFor i = left at ready ⊢
  generalize c.engineFor i = right at ready ⊢
  cases ready with
  | error cause => exact ⟨rfl,withSessionAlike same workspace⟩
  | ok ready =>
    have begun := Session.beginAlike workspace ready i.writeback
    exact drivenAlike (withSessionAlike same begun) begun .resume

theorem inspectAlike (same : d.Alike c) (name : String) (look : Inspection) :
    SameOutcome (d.handle (.inspect name look)) (c.handle (.inspect name look)) := by
  rw [handleInspect, handleInspect]
  refine existingAlike same name fun s r alike => ?_
  rcases relCases alike.suspended with ⟨left,right⟩ | ⟨run,other,left,right,below,reads,rfl⟩
  · rw [left, right, alike.name]
    exact ⟨rfl,same⟩
  · rw [left, right, same.registry]
    exact ⟨namedAlike same _,same⟩

theorem handleAlike (same : d.Alike c) (request : Request) :
    SameOutcome (d.handle request) (c.handle request) := by
  cases request with
  | newSessions names => exact ⟨rfl,withTableAlike same (SessionTable.renewAlike same.table names)⟩
  | deleteSessions names =>
    obtain ⟨answers,table⟩ := SessionTable.deleteAlikeFrom same.table names ∅
    exact ⟨congrArg (fun a => Except.ok (Answer.existed a)) answers,withTableAlike same table⟩
  | sessions =>
    exact ⟨congrArg (fun a => Except.ok (Answer.names a)) (SessionTable.namesAlike same.table),same⟩
  | timestamps names =>
    obtain ⟨answers,table⟩ := SessionTable.timestampsAlikeFrom same.table names ∅
    exact ⟨congrArg (fun a => Except.ok (Answer.timestamps a)) answers,withTableAlike same table⟩
  | setTimestamp name timestamp =>
    have made := SessionTable.getOrCreateAlike same.table name
    exact ⟨rfl,withSessionAlike same ⟨made.name,rfl,made.snapshot,made.suspended⟩⟩
  | rename source target =>
    rw [handleRename, handleRename]
    exact replacedAlike same (SessionTable.renameAlike same.table source target)
  | copy source target =>
    rw [handleCopy, handleCopy]
    exact replacedAlike same (SessionTable.copyAlike same.table source target)
  | invoke i => exact invokeAlike same i
  | startDebug i => exact startDebugAlike same i
  | step name mode =>
    rw [handleStep, handleStep]
    exact existingAlike same name fun _ _ alike => drivenAlike same alike mode
  | settle name =>
    rw [handleSettle, handleSettle]
    exact existingAlike same name fun _ _ alike =>
      ⟨rfl,withSessionAlike same (Session.settleAlike alike)⟩
  | storage name contract start =>
    rw [handleStorage, handleStorage]
    refine existingAlike same name fun s r alike => ⟨?_,same⟩
    rw [Snapshot.findAlike alike.snapshot]
  | inspect name look => exact inspectAlike same name look
  | registry request =>
    rw [handleRegistry, handleRegistry, namedAlike same, same.registry]
    cases c.named (request.perform c.registry) with
    | error cause => exact ⟨rfl,same⟩
    | ok next => exact ⟨rfl,same.config,rfl,same.table⟩

end Debugger

end ScriptDebugger
