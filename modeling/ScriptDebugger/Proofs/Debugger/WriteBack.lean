import ScriptDebugger.Proofs.Debugger.Life
import ScriptDebugger.Proofs.Machine.Writes

/-! A run writes back once. Among all that goes into the ledger of its session while it is there, the
run itself writes only as it halts, and only if it was started with writeback; what it writes are the
keys it stored, as its engine reads them. A request that drops it or starts another in its place goes
as if it had never been there. -/
namespace ScriptDebugger

def Session.runless (s : Session) : Session := { s with suspended := none }

namespace Debugger

theorem startRunless {d : Debugger} {s : Session} {i : Invocation} {e : Engine}
    (here : d.session? i.session = some s) (ready : d.engineFor i = .ok e) :
    d.handle (.startDebug i) = (d.withSession s.runless).handle (.startDebug i) := by
  have own : s.name = i.session := sessionName here
  have works := workspaceOfFound here
  have works' : (d.withSession s.runless).workspace i = s.runless :=
    workspaceOfFound (sessionOwn d (s := s.runless) own)
  have engines : (d.withSession s.runless).engineFor i = d.engineFor i := by
    unfold engineFor
    rw [works, works']
    rfl
  have twice : (d.withSession s.runless).withSession (s.runless.beginDebug e i.writeback) =
      d.withSession (s.beginDebug e i.writeback) := withSessionTwice d rfl
  rw [handleStartDebug, handleStartDebug, engines, ready, works, works']
  dsimp only
  rw [twice]
  rfl

theorem handleRunless {d : Debugger} {name : String} {s : Session} {request : Request}
    (here : d.session? name = some s) (dropped : d.keeps name request = none) :
    d.handle request = (d.withSession s.runless).handle request := by
  have own : s.name = name := sessionName here
  cases request with
  | newSessions names =>
    have listed : s.runless.name ∈ names := by
      by_contra other
      rw [keeps, if_neg (own ▸ other)] at dropped
      contradiction
    rw [handleNewSessions, handleNewSessions, withSession]
    simp only [SessionTable.renewOver d.table listed]
  | deleteSessions names =>
    have listed : s.runless.name ∈ names := by
      by_contra other
      rw [keeps, if_neg (own ▸ other)] at dropped
      contradiction
    have taken : d.table.sessions.contains s.name = true := by
      rw [own, SessionTable.containsLookup, ← session?, here]
      rfl
    rw [handleDeleteSessions, handleDeleteSessions, withSession]
    simp only [SessionTable.deleteOver listed taken]
  | startDebug i =>
    simp only [keeps] at dropped
    split at dropped
    · next both =>
      obtain ⟨rfl,made⟩ := both
      cases ready : d.engineFor i with
      | error cause => simp [ready, Except.isOk, Except.toBool] at made
      | ok e => exact startRunless here ready
    · contradiction
  | rename source target =>
    simp only [keeps] at dropped
    split at dropped <;> contradiction
  | _ => contradiction

-- Whatever is asked of the debugger while a run is in its session.
theorem writesBackOnce {d : Debugger} {i : Invocation} {e : Engine} (ready : d.engineFor i = .ok e)
    {requests : List Request} {name : String}
    (kept : (d.handle (.startDebug i)).2.follow i.session requests = some name) :
    let last := (d.serve (.startDebug i :: requests)).2
    let writes := d.historyOf i e requests
    ∃ (s : Session) (run : SuspendedRun) (n : Nat),
      last.session? name = some s ∧ s.suspended = some run ∧
      run.engine.awake = Engine.executeNext^[n] e ∧
      s.snapshot = writes.foldl (fun t w => w.onto t) (d.workspace i).snapshot ∧
      writes.filterMap Write.run? =
        (if run.engine.state = .halted ∧ i.writeback = true then [run.engine] else []) ∧
      (run.engine.state.isTerminal = true → ∀ mode, (last.handle (.step name mode)).2 = last) ∧
      (∀ request, last.keeps name request = none →
        last.handle request = (last.withSession s.runless).handle request) ∧
      ∀ before,
        (∀ key, Engine.Stored e n key →
          ((Write.run run.engine).onto before).get? key = run.engine.ledger.get? key) ∧
        (∀ key, ¬ Engine.Stored e n key →
          ((Write.run run.engine).onto before).get? key = before.get? key) ∧
        ∀ hash, ((Write.run run.engine).onto before).contract? hash = before.contract? hash := by
  have fresh := engineForFresh ready
  obtain ⟨s,run,n,life,course,grows⟩ := lifeStarted ready kept
  refine ⟨s,run,n,life.here,life.paused,course,grows.ledger,?_,fun ended mode => ?_,
    fun request => handleRunless life.here,fun before => ?_⟩
  · have open' : e.state ≠ .halted := by simp [fresh.1]
    simp only [grows.own, ne_eq, open', not_false_eq_true, true_and]
  · rw [handleStep, life.here]
    dsimp only
    rw [drivenOfTerminal _ mode life.paused ended]
  · exact Engine.commitReads fresh.2 course before

-- Each method stores its number under a key of its own. The run of the first one is stopped behind its
-- storing, then the second one is invoked, then the run is continued to its end.
theorem writesBackWhenContinued :
    let script : Bytes :=
      [0x11,0x0c,1,0x6b,0x41,0xe6,0x3f,0x18,0x84,0x40,
        0x12,0x0c,1,0x6c,0x41,0xe6,0x3f,0x18,0x84,0x40]
    let chain : Snapshot := .deploy .empty ⟨1,.zero,"Counter",script,[⟨"one",0,0⟩,⟨"two",10,0⟩]⟩
    let d : Debugger :=
      { create chain {} with
        registry := { breakpoints := (Breakpoints.addAssembly ∅ .zero [9]).2 } }
    let i (method : String) : Invocation :=
      { session := "a", writeback := true, contract := .zero, method, args := [], signers := [] }
    let requests : List Request := [.invoke (i "two"),.step "a" .resume]
    let begun := (d.handle (.startDebug (i "one"))).2
    ∃ e, d.engineFor (i "one") = .ok e ∧ begun.follow "a" requests = some "a" ∧
      (begun.run? "a").map (fun run => run.engine.state) = some .suspended ∧
      ∃ (s : Session) (run : SuspendedRun) (n : Nat),
        (d.serve (.startDebug (i "one") :: requests)).2.session? "a" = some s ∧
        s.suspended = some run ∧ run.engine.awake = Engine.executeNext^[n] e ∧
        (d.historyOf (i "one") e requests).filterMap Write.run? = [run.engine] ∧
        s.snapshot.get? ⟨.zero,[0x6b]⟩ = some [1] ∧ s.snapshot.get? ⟨.zero,[0x6c]⟩ = some [2] := by
  intro script chain d i requests begun
  have ready : d.engineFor (i "one") = .ok _ := rfl
  have kept : begun.follow "a" requests = some "a" := by decide +kernel
  have stopped : (begun.run? "a").map (fun run => run.engine.state) = some .suspended := by
    decide +kernel
  have left : ((d.serve (.startDebug (i "one") :: requests)).2.session? "a").map (fun s =>
      (s.suspended.map (fun run => run.engine.state),
        s.snapshot.get? ⟨.zero,[0x6b]⟩,s.snapshot.get? ⟨.zero,[0x6c]⟩)) =
      some (some .halted,some [1],some [2]) := by
    decide +kernel
  obtain ⟨s,run,n,here,paused,course,_,own,_⟩ := writesBackOnce ready kept
  rw [here, Option.map_some, paused, Option.some.injEq, Prod.mk.injEq, Prod.mk.injEq,
    Option.map_some, Option.some.injEq] at left
  obtain ⟨halted,one,two⟩ := left
  rw [if_pos ⟨halted,rfl⟩] at own
  exact ⟨_,ready,kept,stopped,s,run,n,here,paused,course,own,one,two⟩

end Debugger

end ScriptDebugger
