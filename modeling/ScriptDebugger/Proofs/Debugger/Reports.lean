import ScriptDebugger.Proofs.Debugger.SameCourse
import ScriptDebugger.Proofs.Stepping.Operations

/-! Engines stay sound whatever drives them, in a debugger too, since each of its runs starts with one
script loaded. So a report has a fault to tell of exactly when it says so, and a place to show unless
the run has halted. -/
namespace ScriptDebugger

structure DebugReport.Agrees (report : DebugReport) : Prop where
  exception : report.exception.isSome = true ↔ report.state = .faulted
  traceback : report.traceback.isSome = true ↔ report.state = .faulted
  contract : report.contract = none ↔ report.state = .halted
  position : report.position = none ↔ report.state = .halted

theorem Engine.captureAgrees {e : Engine} (sound : e.Sound) (r : Registry) (names : Snapshot)
    (reason : StopReason) (max : Nat) :
    (DebugReport.capture e.view r names reason max).Agrees := by
  have faulted := sound.faulted
  have halted := sound.halted
  constructor
  · simp [DebugReport.capture, Engine.view, faulted]
  · simp [DebugReport.capture, Engine.view, faulted]
  · simp [DebugReport.capture, Engine.view, halted]
  · simp [DebugReport.capture, Engine.view, halted]

def Session.Sound (s : Session) : Prop :=
  ∀ run : SuspendedRun, s.suspended = some run → run.engine.Sound

theorem Session.soundCreate (name : String) (base : Snapshot) (overrides : Overrides) :
    (create name base overrides).Sound := by
  intro run held
  contradiction

theorem Session.soundSettle {s : Session} (sound : s.Sound) : s.settle.Sound := by
  unfold settle
  split
  · exact sound
  · next run held =>
    split
    · intro after same
      cases same
      exact sound run held
    · exact sound

namespace SessionTable

def Sound (t : SessionTable) : Prop :=
  ∀ (name : String) (s : Session), t.sessions[name]? = some s → s.Sound

variable {t u : SessionTable}

theorem soundPut (sound : t.Sound) {s : Session} (own : s.Sound) : (t.put s).Sound := by
  intro name other found
  rw [lookupPut] at found
  split at found
  · cases found
    exact own
  · exact sound name other found

theorem soundDrop (sound : t.Sound) (gone : String) : (t.drop gone).Sound := by
  intro name s found
  rw [lookupDrop] at found
  split at found
  · contradiction
  · exact sound name s found

theorem soundGetOrCreate (sound : t.Sound) (name : String) : (t.getOrCreate name).Sound := by
  cases found : t.sessions[name]? with
  | some s =>
    rw [getOrCreateOfFound found]
    exact sound name s found
  | none =>
    rw [getOrCreateOfMissing found]
    exact Session.soundCreate _ _ _

theorem soundListed (sound : t.Sound) {names : List String} {listed : String → Option Session}
    (lookup : ∀ name, u.sessions[name]? = if name ∈ names then listed name else t.sessions[name]?)
    (each : ∀ name s, listed name = some s → s.Sound) : u.Sound := by
  intro name s found
  rw [lookup] at found
  split at found
  · exact each name s found
  · exact sound name s found

theorem soundRename (sound : t.Sound) {source target : String}
    (renamed : t.rename source target = .ok u) : u.Sound := by
  rw [renameCases] at renamed
  split at renamed
  · contradiction
  · split at renamed
    · contradiction
    · next s found =>
      cases renamed
      exact soundPut (soundDrop sound source) (sound source s found)

theorem soundCopy (sound : t.Sound) {source target : String}
    (copied : t.copy source target = .ok u) : u.Sound := by
  rw [copyCases] at copied
  split at copied
  · contradiction
  · split at copied
    · contradiction
    · cases copied
      exact soundPut sound (Session.soundCreate _ _ _)

end SessionTable

namespace Debugger

variable {d : Debugger}

-- The runs that a request leaves are sound, and so is the engine of the report it answers with.
def Upholds (out : Result Answer × Debugger) : Prop :=
  out.2.table.Sound ∧ ∀ report ∈ reports [out.1], report.Agrees

theorem upholdsSilent {out : Result Answer × Debugger} (sound : out.2.table.Sound)
    (silent : reports [out.1] = []) : Upholds out := by
  refine ⟨sound,fun report listed => ?_⟩
  simp [silent] at listed

theorem upholdsReport {e : Engine} (kept : d.table.Sound) (sound : e.Sound) (c : Debugger)
    (reason : StopReason) : Upholds (.ok (.report (c.report e reason)),d) := by
  refine ⟨kept,fun report listed => ?_⟩
  obtain rfl : report = c.report e reason := by simpa [reports] using listed
  exact Engine.captureAgrees sound _ _ _ _

theorem silentThen {α β : Type} (d : Debugger) (answer : β → Answer) {result : Result α}
    {next : α → Result β}
    (silent : ∀ x, reports [(d.named (next x)).map answer] = []) :
    reports [(d.named (result >>= next)).map answer] = [] := by
  cases result with
  | error cause => rfl
  | ok x => exact silent x

theorem lookSilent (d : Debugger) {r : Registry} {v : EngineView} (look : Inspection) :
    reports [d.named (look.look r v)] = [] := by
  have silent : reports [(d.named (look.look r v)).map id] = [] := by
    cases look with
    | slots | evaluation | position | named | scope => exact silentThen d id fun _ => rfl
    | frames => rfl
  rwa [Except.map_id] at silent

theorem performSilent (d : Debugger) {r : Registry} (request : RegistryRequest) :
    reports [(d.named (request.perform r)).map Prod.fst] = [] := by
  cases request with
  | debugInfos | deleteDebugInfo | assembly | deleteAssembly => rfl
  | _ => exact silentThen d Prod.fst fun _ => rfl

theorem engineForSound {i : Invocation} {e : Engine} (ready : d.engineFor i = .ok e) :
    e.Sound := by
  rw [engineForLoaded ready]
  exact Engine.soundLoaded _ _ _ _ _ _

theorem upholdsDriven (sound : d.table.Sound) {s : Session} (own : s.Sound) (mode : StepMode) :
    Upholds (d.driven s mode) := by
  cases held : s.suspended with
  | none =>
    simp only [driven, held]
    exact upholdsSilent sound rfl
  | some paused =>
    cases ended : paused.engine.state.isTerminal with
    | true =>
      rw [drivenOfTerminal d mode held ended]
      exact upholdsSilent sound rfl
    | false =>
      obtain ⟨reason,next,n,resumed,leads,_⟩ :=
        @Run.resumeLeads d.registry mode ⟨paused.engine,d.registry.coverage⟩ ended
      have after := Engine.leadsSound (own paused held) leads
      simp only [driven, held, resumed]
      refine upholdsReport (SessionTable.soundPut sound (Session.soundSettle ?_)) after d reason
      intro run same
      cases same
      exact after

theorem upholdsInvoke (sound : d.table.Sound) (i : Invocation) : Upholds (d.handle (.invoke i)) := by
  have own := SessionTable.soundGetOrCreate sound i.session
  rw [handleInvoke]
  cases ready : d.engineFor i with
  | error cause => exact upholdsSilent (SessionTable.soundPut sound own) rfl
  | ok e =>
    obtain ⟨⟨n,leads⟩,_⟩ := Engine.executeLeads e
    refine upholdsReport (SessionTable.soundPut sound ?_)
      (Engine.leadsSound (engineForSound ready) leads) d .none
    split
    · exact own
    · exact own

theorem upholdsStartDebug (sound : d.table.Sound) (i : Invocation) :
    Upholds (d.handle (.startDebug i)) := by
  rw [handleStartDebug]
  cases ready : d.engineFor i with
  | error cause =>
    have own := SessionTable.soundGetOrCreate sound i.session
    exact upholdsSilent (SessionTable.soundPut sound own) rfl
  | ok e =>
    have begun : ((d.workspace i).beginDebug e i.writeback).Sound := by
      intro run held
      cases held
      exact engineForSound ready
    exact upholdsDriven (SessionTable.soundPut sound begun) begun .resume

theorem upholdsInspect (sound : d.table.Sound) (name : String) (look : Inspection) :
    Upholds (d.handle (.inspect name look)) := by
  rw [handleInspect]
  split
  · exact upholdsSilent sound rfl
  · split
    · exact upholdsSilent sound rfl
    · exact upholdsSilent sound (lookSilent d look)

theorem handleUpholds (sound : d.table.Sound) (request : Request) : Upholds (d.handle request) := by
  cases request with
  | newSessions names =>
    refine upholdsSilent (SessionTable.soundListed sound (d.table.lookupRenew names).2.2 ?_) rfl
    intro name s listed
    cases listed
    exact Session.soundCreate _ _ _
  | deleteSessions names =>
    refine upholdsSilent (SessionTable.soundListed sound (d.table.lookupDelete names).2.2 ?_) rfl
    intro name s listed
    contradiction
  | sessions => exact upholdsSilent sound rfl
  | rename source target =>
    rw [handleRename]
    cases renamed : d.table.rename source target with
    | error cause => exact upholdsSilent sound rfl
    | ok table => exact upholdsSilent (SessionTable.soundRename sound renamed) rfl
  | copy source target =>
    rw [handleCopy]
    cases copied : d.table.copy source target with
    | error cause => exact upholdsSilent sound rfl
    | ok table => exact upholdsSilent (SessionTable.soundCopy sound copied) rfl
  | setTimestamp name timestamp =>
    have own := SessionTable.soundGetOrCreate sound name
    exact upholdsSilent (SessionTable.soundPut sound own) rfl
  | timestamps names =>
    refine upholdsSilent (SessionTable.soundListed sound (d.table.lookupTimestamps names).2.2 ?_) rfl
    intro name s listed
    cases listed
    exact SessionTable.soundGetOrCreate sound name
  | invoke i => exact upholdsInvoke sound i
  | startDebug i => exact upholdsStartDebug sound i
  | step name mode =>
    rw [handleStep]
    cases here : d.session? name with
    | none => exact upholdsSilent sound rfl
    | some s => exact upholdsDriven sound (sound name s here) mode
  | settle name =>
    rw [handleSettle]
    cases here : d.session? name with
    | none => exact upholdsSilent sound rfl
    | some s =>
      exact upholdsSilent (SessionTable.soundPut sound (Session.soundSettle (sound name s here))) rfl
  | storage name contract start =>
    rw [handleStorage]
    cases d.session? name <;> exact upholdsSilent sound rfl
  | inspect name look => exact upholdsInspect sound name look
  | registry request =>
    rw [handleRegistry]
    have silent := @performSilent d d.registry request
    cases performed : d.named (request.perform d.registry) with
    | error cause => exact upholdsSilent sound rfl
    | ok out =>
      rw [performed] at silent
      exact upholdsSilent sound silent

theorem serveUpholds (sound : d.table.Sound) (requests : List Request) :
    ∀ report ∈ reports (d.serve requests).1, report.Agrees := by
  induction requests generalizing d with
  | nil =>
    intro report listed
    contradiction
  | cons request rest ih =>
    intro report listed
    obtain ⟨kept,first⟩ := handleUpholds sound request
    have served : (d.serve (request :: rest)).1 =
        (d.handle request).1 :: ((d.handle request).2.serve rest).1 := rfl
    rw [served, reportsCons, List.mem_append] at listed
    exact listed.elim (first report) (ih kept report)

theorem reportsAgree (chain : Snapshot) (config : Config) (requests : List Request) :
    ∀ report ∈ reports ((create chain config).serve requests).1, report.Agrees := by
  refine serveUpholds (fun name s found => ?_) requests
  simp [create] at found

end Debugger

theorem Engine.staysSound (ledger : Snapshot) (timestamp : Option Nat) (signers : List Signer)
    (gasLimit : Int) (surroundings : Surroundings) (script : Bytes)
    (operations : List Operation) :
    let start := (create ledger timestamp signers gasLimit surroundings).loadScript script
    let e := start.operated operations
    e.Sound ∧ (e.state ≠ .halted → e.frames ≠ []) ∧ (e.state ≠ .faulted → e.fault = none) ∧
    (e.state.isTerminal = true → (∀ operation, e.operate operation = e) ∧
      ∀ (r : Registry) (mode : StepMode) (coverage : Coverage),
        Run.resume r mode ⟨e,coverage⟩ =
          .error (if e.state = .halted then .engineHalted else .engineFaulted)) ∧
    (∀ (r : Registry) (names : Snapshot) (reason : StopReason) (max : Nat),
      let report := DebugReport.capture e.view r names reason max
      report.state = e.state ∧ report.Agrees) ∧
    ∀ (chain : Snapshot) (config : Config) (requests : List Request),
      ∀ report ∈ Debugger.reports ((Debugger.create chain config).serve requests).1,
        report.Agrees := by
  intro start e
  have loaded : start.Sound := soundLoaded ledger timestamp signers gasLimit surroundings script
  have sound : e.Sound := operatedSound loaded operations
  refine ⟨sound,fun other bare => other (sound.halted.mpr bare),fun other => ?_,fun ended => ?_,
    fun r names reason max => ⟨rfl,captureAgrees sound r names reason max⟩,Debugger.reportsAgree⟩
  · rw [← Option.not_isSome_iff_eq_none, ← sound.faulted]
    exact other
  · exact ⟨operateOfTerminal ended,fun r mode coverage =>
      @Run.resumeOfTerminal r mode ⟨e,coverage⟩ ended⟩

end ScriptDebugger
