import ScriptDebugger.Proofs.Machine.Writes
import ScriptDebugger.Machine.View

/-! Execution over other layers. An engine whose ledger lies over layers that read the same runs in
the same way, and leaves the same but for those layers: only what is read below matters, not how it
is layered. -/
namespace ScriptDebugger

theorem FrameM.performAlike {l m : Snapshot} (same : l.Alike m) (time room start : Nat)
    (action : Action) :
    FrameM.perform ⟨l,time,room⟩ start action = FrameM.perform ⟨m,time,room⟩ start action := by
  cases action with
  | service code =>
    dsimp only [FrameM.perform]
    cases Interop.ofCode? code with
    | none => rfl
    | some service =>
      cases service with
      | contractCall => simp only [FrameM.callService, FrameM.callContract, same.contracts]
      | storageGet => simp only [FrameM.callService, same.storage]
      | _ => rfl
  | _ => rfl

namespace Engine

def rebase (below : List Layer) (e : Engine) : Engine :=
  { e with ledger := ⟨e.ledger.top,below⟩ }

def Rebases (below : List Layer) (e : Engine) : Prop :=
  (⟨{},below⟩ : Snapshot).Alike e.ledger.under

theorem rebasedReads {below : List Layer} {e : Engine} (reads : Rebases below e) :
    (e.rebase below).ledger.Alike e.ledger := Snapshot.readOver rfl reads

theorem leaveRebase (below : List Layer) (e : Engine) (f : Frame) (rest : List Frame) :
    (e.rebase below).leave f rest = (e.leave f rest).rebase below := by
  cases rest <;> rfl

theorem runFrameRebase {below : List Layer} {e : Engine} (reads : Rebases below e) (f : Frame)
    (rest : List Frame) : (e.rebase below).runFrame f rest = (e.runFrame f rest).rebase below := by
  unfold runFrame
  cases f.fetched with
  | ended => exact leaveRebase below e f rest
  | invalid => rfl
  | instruction i length =>
    have same : FrameM.perform (e.rebase below).host f.position i.action =
        FrameM.perform e.host f.position i.action :=
      FrameM.performAlike (rebasedReads reads) e.host.time e.host.room f.position i.action
    dsimp only
    rw [same]
    cases FrameM.perform e.host f.position i.action
      { f with position := f.position + length } with
    | error fault g => rfl
    | ok effect g =>
      cases effect with
      | leave => exact leaveRebase below e g rest
      | _ => rfl

theorem executeNextRebase {below : List Layer} {e : Engine} (reads : Rebases below e) :
    (e.rebase below).executeNext = e.executeNext.rebase below := by
  cases ended : e.state.isTerminal with
  | true =>
    have stays := @executeNextOfTerminal (e.rebase below) ended
    rw [stays, executeNextOfTerminal ended]
  | false =>
    cases shape : e.frames with
    | nil =>
      have next := @executeNextUnframed (e.rebase below) ended shape
      rw [next, executeNextUnframed ended shape]
      rfl
    | cons f rest =>
      by_cases short : e.gasLimit < e.payGas.gas
      · have next := @executeNextShort (e.rebase below) f rest ended shape short
        rw [next, executeNextShort ended shape short]
        rfl
      · have next := @executeNextFramed (e.rebase below) f rest ended shape short
        rw [next, executeNextFramed ended shape short]
        exact @runFrameRebase below e.payGas reads f rest

theorem rebasesExecuteNext {below : List Layer} {e : Engine} (reads : Rebases below e) :
    Rebases below e.executeNext := by
  unfold Rebases
  rcases executeNextLedger e with ⟨key,v,_,put⟩ | ⟨_,same⟩
  · rw [put]
    exact reads
  · rw [same]
    exact reads

theorem runRebase {below : List Layer} {e : Engine} (reads : Rebases below e) :
    (e.rebase below).run = e.run.rebase below := by
  fun_induction run e with
  | case1 e running ih =>
    rw [run, dif_pos (show (e.rebase below).state = .running from running),
      executeNextRebase reads, ih (rebasesExecuteNext reads)]
  | case2 e stopped => rw [run, dif_neg (show ¬ (e.rebase below).state = .running from stopped)]

theorem awakeRebase (below : List Layer) (e : Engine) :
    (e.rebase below).awake = e.awake.rebase below := by
  unfold awake
  rw [show (e.rebase below).state = e.state from rfl]
  split <;> rfl

theorem rebasesAwake {below : List Layer} {e : Engine} (reads : Rebases below e) :
    Rebases below e.awake := by
  unfold Rebases
  rw [awakeLedger]
  exact reads

theorem executeRebase {below : List Layer} {e : Engine} (reads : Rebases below e) :
    (e.rebase below).execute = e.execute.rebase below := by
  change (e.rebase below).awake.run = e.awake.run.rebase below
  rw [awakeRebase, runRebase (rebasesAwake reads)]

theorem rebasesIterate {below : List Layer} {e : Engine} (reads : Rebases below e) (n : Nat) :
    Rebases below (executeNext^[n] e) := by
  induction n with
  | zero => exact reads
  | succ n ih =>
    rw [Function.iterate_succ_apply']
    exact rebasesExecuteNext ih

theorem rebasesExecute {below : List Layer} {e : Engine} (reads : Rebases below e) :
    Rebases below e.execute := by
  obtain ⟨n,reached,_⟩ := executeReaches e
  rw [reached]
  exact rebasesIterate (rebasesAwake reads) n

theorem viewRebase (below : List Layer) (e : Engine) : (e.rebase below).view = e.view := rfl

end Engine

end ScriptDebugger
