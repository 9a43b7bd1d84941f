import ScriptDebugger.Proofs.Debugger.Handling

/-! What requests leave alone. A request puts and drops sessions under the names it addresses and
does nothing else to the table, so all other sessions and the state of the chain stay as they are. -/
namespace ScriptDebugger

def Request.addresses : Request → List String
  | newSessions names | deleteSessions names | timestamps names => names
  | .rename source target => [source,target]
  | copy _ target => [target]
  | setTimestamp name _ | step name _ | settle name => [name]
  | invoke i | startDebug i => [i.session]
  | sessions | storage _ _ _ | inspect _ _ | registry _ => []

namespace SessionTable

inductive Edited (names : List String) (t : SessionTable) : SessionTable → Prop where
  | kept : Edited names t t
  | put {u : SessionTable} {s : Session} (before : Edited names t u) (own : s.name ∈ names) :
    Edited names t (u.put s)
  | drop {u : SessionTable} {name : String} (before : Edited names t u) (own : name ∈ names) :
    Edited names t (u.drop name)

variable {names : List String} {t u v : SessionTable}

theorem editedTrans (first : Edited names t u) (second : Edited names u v) : Edited names t v := by
  induction second with
  | kept => exact first
  | put _ own ih => exact .put ih own
  | drop _ own ih => exact .drop ih own

theorem editedFoldl {σ : Type} (table : σ → SessionTable) (f : σ → String → σ)
    (each : ∀ x, ∀ name ∈ names, Edited names (table x) (table (f x name))) (x : σ)
    {rest : List String} (inside : ∀ name ∈ rest, name ∈ names) :
    Edited names (table x) (table (rest.foldl f x)) := by
  induction rest generalizing x with
  | nil => exact .kept
  | cons head tail ih =>
    have first := each x head (inside head (.head _))
    exact editedTrans first (ih (f x head) fun name listed => inside name (.tail _ listed))

theorem editedChain (edited : Edited names t u) : u.chain = t.chain := by
  induction edited with
  | kept => rfl
  | put _ _ ih => exact ih
  | drop _ _ ih => exact ih

theorem editedDefaults (edited : Edited names t u) : u.defaults = t.defaults := by
  induction edited with
  | kept => rfl
  | put _ _ ih => exact ih
  | drop _ _ ih => exact ih

theorem editedElsewhere (edited : Edited names t u) {name : String} (elsewhere : name ∉ names) :
    u.sessions[name]? = t.sessions[name]? := by
  induction edited with
  | kept => rfl
  | put _ own ih => rw [lookupPut, if_neg (by rintro rfl; exact elsewhere own), ih]
  | drop _ own ih => rw [lookupDrop, if_neg (by rintro rfl; exact elsewhere own), ih]

end SessionTable

namespace Debugger

open SessionTable (Edited)

theorem drivenEdited (d : Debugger) (s : Session) (mode : StepMode) :
    Edited [s.name] d.table (d.driven s mode).2.table := by
  unfold driven
  split
  · exact .kept
  · split
    · exact .kept
    · exact .put .kept (by rw [Session.settleName]; exact .head _)

theorem handleEdited (d : Debugger) (request : Request) :
    Edited request.addresses d.table (d.handle request).2.table := by
  cases request with
  | newSessions names =>
    exact SessionTable.editedFoldl id _ (fun _ _ own => .put .kept own) d.table fun _ own => own
  | deleteSessions names =>
    exact SessionTable.editedFoldl Prod.snd _ (fun _ _ own => .drop .kept own) (∅,d.table)
      fun _ own => own
  | timestamps names =>
    refine SessionTable.editedFoldl Prod.snd _ (fun x name own => .put .kept ?_) (∅,d.table)
      fun _ own => own
    rwa [SessionTable.getOrCreateName]
  | rename source target =>
    rw [renameCases]
    split
    · exact .kept
    · exact .kept
    · exact .put (.drop .kept (.head _)) (.tail _ (.head _))
  | copy source target =>
    rw [copyCases]
    split
    · exact .kept
    · exact .kept
    · exact .put .kept (.head _)
  | setTimestamp name timestamp =>
    exact .put .kept (List.mem_singleton.mpr (SessionTable.getOrCreateName d.table name))
  | invoke i =>
    have own : (d.workspace i).name ∈ [i.session] := List.mem_singleton.mpr (workspaceName d i)
    rw [handleInvoke]
    cases d.engineFor i with
    | error cause => exact .put .kept own
    | ok e =>
      apply Edited.put .kept
      split <;> exact own
  | startDebug i =>
    have own : (d.workspace i).name ∈ [i.session] := List.mem_singleton.mpr (workspaceName d i)
    rw [handleStartDebug]
    cases d.engineFor i with
    | error cause => exact .put .kept own
    | ok e =>
      have begun : Edited [i.session] d.table
          (d.withSession ((d.workspace i).beginDebug e i.writeback)).table := .put .kept own
      have ran := drivenEdited (d.withSession ((d.workspace i).beginDebug e i.writeback))
        ((d.workspace i).beginDebug e i.writeback) .resume
      rw [show ((d.workspace i).beginDebug e i.writeback).name = i.session from
        workspaceName d i] at ran
      exact SessionTable.editedTrans begun ran
  | step name mode =>
    rw [handleStep]
    cases here : d.session? name with
    | none => exact .kept
    | some s =>
      have ran := drivenEdited d s mode
      rwa [sessionName here] at ran
  | settle name =>
    rw [handleSettle]
    cases here : d.session? name with
    | none => exact .kept
    | some s =>
      refine .put .kept (List.mem_singleton.mpr ?_)
      rw [Session.settleName, sessionName here]
  | sessions => exact .kept
  | storage name contract start =>
    rw [handleStorage]
    cases d.session? name <;> exact .kept
  | inspect name look =>
    rw [handleInspect]
    split
    · exact .kept
    · split <;> exact .kept
  | registry request =>
    rw [handleRegistry]
    split <;> exact .kept

theorem handleChain (d : Debugger) (request : Request) :
    (d.handle request).2.table.chain = d.table.chain :=
  SessionTable.editedChain (handleEdited d request)

theorem handleDefaults (d : Debugger) (request : Request) :
    (d.handle request).2.table.defaults = d.table.defaults :=
  SessionTable.editedDefaults (handleEdited d request)

theorem handleElsewhere (d : Debugger) (request : Request) {name : String}
    (elsewhere : name ∉ request.addresses) :
    (d.handle request).2.session? name = d.session? name :=
  SessionTable.editedElsewhere (handleEdited d request) elsewhere

theorem serveChain (d : Debugger) (requests : List Request) :
    (d.serve requests).2.table.chain = d.table.chain := by
  induction requests generalizing d with
  | nil => rfl
  | cons request rest ih => exact (ih (d.handle request).2).trans (handleChain d request)

theorem serveElsewhere (d : Debugger) {name : String} {requests : List Request}
    (elsewhere : ∀ request ∈ requests, name ∉ request.addresses) :
    (d.serve requests).2.session? name = d.session? name := by
  induction requests generalizing d with
  | nil => rfl
  | cons request rest ih =>
    have later := ih (d.handle request).2 fun other inside => elsewhere other (.tail _ inside)
    exact later.trans (handleElsewhere d request (elsewhere request (.head _)))

end Debugger

end ScriptDebugger
