import ScriptDebugger.Proofs.Debugger.Life
import ScriptDebugger.Proofs.Registry.Tracking
import ScriptDebugger.Proofs.Stepping.Operations

/-! What is covered, over everything that is asked of a debugger. A flag is up when a debug command of
some session has taken an instruction from its place, since the flags of the contract were last put
down by a request that made it known or cleared its coverage. -/
namespace ScriptDebugger

def Request.resets? : Request → Option ContractHash
  | registry request => request.resets?
  | _ => none

theorem Session.settleEngine {s : Session} {run : SuspendedRun} (held : s.suspended = some run) :
    ∃ after, s.settle.suspended = some after ∧ after.engine = run.engine := by
  unfold settle
  rw [held]
  dsimp only
  split
  · exact ⟨_,rfl,rfl⟩
  · exact ⟨run,held,rfl⟩

namespace Debugger

variable {d : Debugger} {request : Request} {contract : ContractHash} {offset : Nat}

-- The engine that a debug command goes on with, and the one it leaves.
def moved? (d : Debugger) (request : Request) : Option (Engine × Engine) :=
  let last? (name : String) := ((d.handle request).2.run? name).map SuspendedRun.engine
  match request with
  | .startDebug i =>
    match d.engineFor i with
    | .ok e => (last? i.session).map fun after => (e,after)
    | .error _ => none
  | .step name _ => (d.run? name).bind fun run => (last? name).map fun after => (run.engine,after)
  | _ => none

-- The request is a debug command that takes an instruction from there.
def Visits (d : Debugger) (request : Request) (contract : ContractHash) (offset : Nat) : Prop :=
  ∃ e after, d.moved? request = some (e,after) ∧ e.Visits after contract offset

-- The request puts the flags of the contract down, and is not refused.
def Resets (d : Debugger) (request : Request) (contract : ContractHash) : Prop :=
  request.resets? = some contract ∧ (d.handle request).1.isOk = true

theorem resetsUnvisited (resets : d.Resets request contract) : ¬ d.Visits request contract offset := by
  rintro ⟨e,after,moved,_⟩
  obtain ⟨named,_⟩ := resets
  cases request <;> contradiction

inductive Recorded (d : Debugger) (request : Request) : Registry → Prop where
  | still (unmoved : d.moved? request = none) (free : ∀ contract, ¬ d.Resets request contract) :
    Recorded d request d.registry
  | drove {e after : Engine} {coverage : Coverage} (moved : d.moved? request = some (e,after))
      (quiet : request.resets? = none) (grows : d.registry.coverage.Grows coverage)
      (records : d.registry.coverage.Records coverage (e.Visits after)) :
      Recorded d request { d.registry with coverage }
  | changed {asked : RegistryRequest} {answer : Answer} {next : Registry}
      (same : request = .registry asked) (granted : (d.handle request).1.isOk = true)
      (performed : asked.perform d.registry = .ok (answer,next)) : Recorded d request next

theorem drivenRecords {name : String} {s : Session} {paused : SuspendedRun}
    (here : d.session? name = some s) (held : s.suspended = some paused) (mode : StepMode) :
    ∃ after coverage,
      ((d.driven s mode).2.run? name).map SuspendedRun.engine = some after ∧
      (d.driven s mode).2.registry = { d.registry with coverage } ∧
      d.registry.coverage.Grows coverage ∧
      d.registry.coverage.Records coverage (paused.engine.Visits after) := by
  cases ended : paused.engine.state.isTerminal with
  | true =>
    rw [drivenOfTerminal d mode held ended]
    refine ⟨paused.engine,d.registry.coverage,?_,rfl,Coverage.growsRefl _,
      Coverage.recordsNone fun _ _ => Engine.visitsNone (Engine.leadsNone rfl)⟩
    rw [run?, here, Option.bind_some, held, Option.map_some]
  | false =>
    obtain ⟨reason,next,_,resumed,_⟩ :=
      @Run.resumeLeads d.registry mode ⟨paused.engine,d.registry.coverage⟩ ended
    have marks := Run.closedResume Run.marksClosed resumed
    have covers := Run.closedResume Run.coversClosed resumed
    let left : Session := { s with suspended := some { paused with engine := next.engine } }
    have named : s.name = name := sessionName here
    have own : left.settle.name = name := (Session.settleName left).trans named
    obtain ⟨after,settled,engine⟩ := @Session.settleEngine left _ rfl
    have out : (d.driven s mode).2 = (d.withCoverage next.coverage).withSession left.settle := by
      simp only [driven, held, resumed, left]
    rw [out]
    refine ⟨next.engine,next.coverage,?_,rfl,covers,marks.records⟩
    rw [run?, sessionOwn _ own, Option.bind_some, settled, Option.map_some, engine]

theorem recordedStill {out : Registry} (same : out = d.registry) (unmoved : d.moved? request = none)
    (quiet : request.resets? = none) : Recorded d request out := by
  rw [same]
  refine .still unmoved fun contract resets => ?_
  have named := resets.1
  rw [quiet] at named
  contradiction

theorem stepRecorded (d : Debugger) (name : String) (mode : StepMode) :
    Recorded d (.step name mode) (d.handle (.step name mode)).2.registry := by
  cases held : d.run? name with
  | none =>
    refine recordedStill ?_ (by simp [moved?, held]) rfl
    rw [handleStep]
    cases here : d.session? name with
    | none => rfl
    | some s =>
      rw [run?, here] at held
      simp only [driven, show s.suspended = none from held]
  | some paused =>
    obtain ⟨s,here,suspended⟩ := Option.bind_eq_some_iff.mp held
    obtain ⟨after,coverage,left,registry,grows,records⟩ := drivenRecords here suspended mode
    have out : d.handle (.step name mode) = d.driven s mode := by
      rw [handleStep, here]
    rw [← out] at left registry
    rw [registry]
    refine .drove ?_ rfl grows records
    simp only [moved?, held, left, Option.bind_some, Option.map_some]

theorem startDebugRecorded (d : Debugger) (i : Invocation) :
    Recorded d (.startDebug i) (d.handle (.startDebug i)).2.registry := by
  cases ready : d.engineFor i with
  | error cause =>
    refine recordedStill ?_ (by simp [moved?, ready]) rfl
    rw [handleStartDebug, ready]
    rfl
  | ok e =>
    obtain ⟨after,coverage,left,registry,grows,records⟩ :=
      @drivenRecords (d.begun i e) i.session _ _ (sessionBegun d i e) rfl .resume
    have out : d.handle (.startDebug i) =
        (d.begun i e).driven ((d.workspace i).beginDebug e i.writeback) .resume := by
      rw [startDebugBegun ready, handleStep, sessionBegun]
    rw [← out] at left registry
    rw [registry]
    refine .drove ?_ rfl grows records
    simp only [moved?, ready, left, Option.map_some]

theorem handleRecorded (d : Debugger) (request : Request) :
    Recorded d request (d.handle request).2.registry := by
  cases request with
  | startDebug i => exact startDebugRecorded d i
  | step name mode => exact stepRecorded d name mode
  | newSessions | deleteSessions | sessions | setTimestamp | timestamps =>
    exact recordedStill rfl rfl rfl
  | rename source target =>
    refine recordedStill ?_ rfl rfl
    rw [handleRename]
    cases d.table.rename source target <;> rfl
  | copy source target =>
    refine recordedStill ?_ rfl rfl
    rw [handleCopy]
    cases d.table.copy source target <;> rfl
  | invoke i =>
    refine recordedStill ?_ rfl rfl
    rw [handleInvoke]
    cases d.engineFor i <;> rfl
  | settle name =>
    refine recordedStill ?_ rfl rfl
    rw [handleSettle]
    cases d.session? name <;> rfl
  | storage name contract start =>
    refine recordedStill ?_ rfl rfl
    rw [handleStorage]
    cases d.session? name <;> rfl
  | inspect name look =>
    refine recordedStill ?_ rfl rfl
    rw [handleInspect]
    split
    · rfl
    · split <;> rfl
  | registry asked =>
    cases performed : asked.perform d.registry with
    | error cause =>
      obtain ⟨refusal,out⟩ : ∃ refusal, d.handle (.registry asked) = (.error refusal,d) :=
        ⟨_,by rw [handleRegistry, performed]; rfl⟩
      rw [out]
      refine .still rfl fun contract resets => ?_
      have granted := resets.2
      rw [out] at granted
      contradiction
    | ok granted =>
      have out : d.handle (.registry asked) = (.ok granted.1,{ d with registry := granted.2 }) := by
        rw [handleRegistry, performed]
        rfl
      rw [out]
      exact .changed rfl (by rw [out]; rfl) performed

-- What becomes of one flag, by whether the request resets its contract and visits its place.
inductive Flagged (before after : Option Bool) (reset visited : Prop) : Prop where
  | lowered (resets : reset) (low : after ≠ some true)
  | forgotten (free : ¬ reset) (gone : after = none)
  | raised (free : ¬ reset) (tracked : after.isSome = before.isSome)
      (raised : after = some true ↔ before = some true ∨ before.isSome = true ∧ visited)

theorem flaggedSame {before after : Option Bool} {reset visited : Prop} (free : ¬ reset)
    (unvisited : ¬ visited) (same : after = before) : Flagged before after reset visited := by
  subst same
  exact .raised free rfl (by simp [unvisited])

theorem visitsMoved {e after : Engine} (moved : d.moved? request = some (e,after)) :
    d.Visits request contract offset ↔ e.Visits after contract offset := by
  constructor
  · rintro ⟨_,_,same,visits⟩
    rw [moved] at same
    cases same
    exact visits
  · exact fun visits => ⟨e,after,moved,visits⟩

theorem registryUnvisited {asked : RegistryRequest} : ¬ d.Visits (.registry asked) contract offset := by
  rintro ⟨_,_,moved,_⟩
  contradiction

theorem flaggedReset {before after : Option Bool} {asked : RegistryRequest} {named : ContractHash}
    (names : asked.resets? = some named) (granted : (d.handle (.registry asked)).1.isOk = true)
    (own : named = contract → after ≠ some true) (other : named ≠ contract → after = before) :
    Flagged before after (d.Resets (.registry asked) contract)
      (d.Visits (.registry asked) contract offset) := by
  by_cases same : named = contract
  · exact .lowered ⟨same ▸ names,granted⟩ (own same)
  · refine flaggedSame ?_ registryUnvisited (other same)
    rintro ⟨resets,_⟩
    exact same (Option.some.inj (names.symm.trans resets))

theorem handleFlagged (d : Debugger) (request : Request) (contract : ContractHash) (offset : Nat) :
    Flagged (d.registry.coverage.flag? contract offset)
      ((d.handle request).2.registry.coverage.flag? contract offset)
      (d.Resets request contract) (d.Visits request contract offset) := by
  have recorded := handleRecorded d request
  generalize (d.handle request).2.registry = next at recorded ⊢
  cases recorded with
  | still unmoved free =>
    refine flaggedSame (free contract) ?_ rfl
    rintro ⟨_,_,moved,_⟩
    rw [unmoved] at moved
    contradiction
  | drove moved quiet _ records =>
    refine .raised ?_ (records.tracked contract offset) ?_
    · rintro ⟨named,_⟩
      rw [quiet] at named
      contradiction
    · rw [visitsMoved moved]
      exact records.raised contract offset
  | @changed asked answer next same granted performed =>
    subst same
    cases Registry.requestPerformed performed with
    | answered quiet | assembly quiet | source quiet =>
      refine flaggedSame ?_ registryUnvisited rfl
      rintro ⟨named,_⟩
      change asked.resets? = some contract at named
      rw [quiet] at named
      contradiction
    | learnt =>
      refine flaggedReset rfl granted ?_ (Coverage.seedOther _ offset)
      rintro rfl
      exact Coverage.seedLow _ offset
    | cleared =>
      refine flaggedReset rfl granted ?_ (Coverage.clearOther offset)
      rintro rfl
      exact Coverage.clearLow offset
    | @forgotten contracts =>
      have free : ¬ d.Resets (.registry (.deleteDebugInfo contracts)) contract := by
        rintro ⟨named,_⟩
        contradiction
      rw [Registry.forgetFlag]
      split
      · exact .forgotten free rfl
      · exact flaggedSame free registryUnvisited rfl

def after (d : Debugger) (requests : List Request) : Debugger := (d.serve requests).2

def Unreset (d : Debugger) (requests : List Request) (contract : ContractHash) : Prop :=
  ∀ j later, requests[j]? = some later → ¬ (d.after (requests.take j)).Resets later contract

-- One of the requests visits the place, and none of those that follow resets the contract.
def VisitedSince (d : Debugger) (requests : List Request) (contract : ContractHash) (offset : Nat) :
    Prop :=
  ∃ i request, requests[i]? = some request ∧
    (d.after (requests.take i)).Visits request contract offset ∧
    ∀ j later, i < j → requests[j]? = some later →
      ¬ (d.after (requests.take j)).Resets later contract

variable {rest : List Request}

theorem afterCons (d : Debugger) (request : Request) (rest : List Request) :
    d.after (request :: rest) = (d.handle request).2.after rest := rfl

theorem unresetCons : d.Unreset (request :: rest) contract ↔
    ¬ d.Resets request contract ∧ (d.handle request).2.Unreset rest contract := by
  constructor
  · exact fun unreset => ⟨unreset 0 request rfl,fun j later listed => unreset (j + 1) later listed⟩
  · rintro ⟨first,onward⟩ j later listed
    cases j with
    | zero => exact Option.some.inj listed ▸ first
    | succ j => exact onward j later listed

theorem visitedCons : d.VisitedSince (request :: rest) contract offset ↔
    d.Visits request contract offset ∧ (d.handle request).2.Unreset rest contract ∨
      (d.handle request).2.VisitedSince rest contract offset := by
  constructor
  · rintro ⟨i,visitor,listed,visits,unreset⟩
    cases i with
    | zero =>
      cases listed
      exact .inl ⟨visits,fun j later => unreset (j + 1) later (Nat.succ_pos j)⟩
    | succ i =>
      exact .inr ⟨i,visitor,listed,visits,
        fun j later follows => unreset (j + 1) later (Nat.succ_lt_succ follows)⟩
  · rintro (⟨visits,unreset⟩ | ⟨i,visitor,listed,visits,unreset⟩)
    · refine ⟨0,request,rfl,visits,fun j later follows listed => ?_⟩
      cases j with
      | zero => exact absurd follows (Nat.lt_irrefl 0)
      | succ j => exact unreset j later listed
    · refine ⟨i + 1,visitor,listed,visits,fun j later follows listed => ?_⟩
      cases j with
      | zero => exact absurd follows (Nat.not_lt_zero _)
      | succ j => exact unreset j later (Nat.lt_of_succ_lt_succ follows) listed

theorem untrackedStays (d : Debugger) {requests : List Request}
    (unreset : d.Unreset requests contract)
    (gone : d.registry.coverage.flag? contract offset = none) :
    (d.after requests).registry.coverage.flag? contract offset = none := by
  induction requests generalizing d with
  | nil => exact gone
  | cons request rest ih =>
    obtain ⟨free,onward⟩ := unresetCons.mp unreset
    apply ih (d.handle request).2 onward
    cases handleFlagged d request contract offset with
    | lowered resets => exact absurd resets free
    | forgotten _ gone => exact gone
    | raised _ tracked =>
      rw [gone] at tracked
      exact Option.not_isSome_iff_eq_none.mp (Bool.eq_false_iff.mp tracked)

-- The induction is on the requests: the flag is up from before and never put down again, or it was
-- raised by one of them since.
theorem flagAfter (d : Debugger) (requests : List Request) (contract : ContractHash) (offset : Nat) :
    (d.after requests).registry.coverage.flag? contract offset = some true ↔
      ((d.after requests).registry.coverage.flag? contract offset).isSome = true ∧
        (d.registry.coverage.flag? contract offset = some true ∧ d.Unreset requests contract ∨
          d.VisitedSince requests contract offset) := by
  induction requests generalizing d with
  | nil =>
    constructor
    · exact fun up => ⟨by rw [up]; rfl,.inl ⟨up,nofun⟩⟩
    · rintro ⟨_,⟨up,_⟩ | ⟨_,_,listed,_⟩⟩
      · exact up
      · contradiction
  | cons request rest ih =>
    rw [afterCons, ih, unresetCons, visitedCons]
    refine and_congr_right fun tracked => ?_
    have known (unreset : (d.handle request).2.Unreset rest contract) :
        ((d.handle request).2.registry.coverage.flag? contract offset).isSome = true := by
      by_contra missing
      rw [untrackedStays _ unreset (Option.not_isSome_iff_eq_none.mp missing)] at tracked
      contradiction
    have flagged := handleFlagged d request contract offset
    generalize (d.handle request).2.registry.coverage.flag? contract offset = next at known flagged ⊢
    rw [← or_assoc]
    refine or_congr_left ⟨?_,?_⟩
    · rintro ⟨up,unreset⟩
      cases flagged with
      | lowered _ low => exact absurd up low
      | forgotten _ gone => simp [gone] at up
      | raised free _ raised =>
        rcases raised.mp up with before | ⟨_,visits⟩
        · exact .inl ⟨before,free,unreset⟩
        · exact .inr ⟨visits,unreset⟩
    · rintro (⟨before,free,unreset⟩ | ⟨visits,unreset⟩)
      · cases flagged with
        | lowered resets => exact absurd resets free
        | forgotten _ gone =>
          have up := known unreset
          simp [gone] at up
        | raised _ _ raised => exact ⟨raised.mpr (.inl before),unreset⟩
      · cases flagged with
        | lowered resets => exact absurd visits (resetsUnvisited resets)
        | forgotten _ gone =>
          have up := known unreset
          simp [gone] at up
        | raised _ same raised =>
          exact ⟨raised.mpr (.inr ⟨same ▸ known unreset,visits⟩),unreset⟩

theorem handleConsistent (consistent : d.registry.Consistent) (request : Request) :
    (d.handle request).2.registry.Consistent := by
  have recorded := handleRecorded d request
  generalize (d.handle request).2.registry = next at recorded ⊢
  cases recorded with
  | still => exact consistent
  | drove _ _ grows => exact Registry.consistentGrows consistent grows
  | changed _ _ performed =>
    exact Registry.consistentChanged (Registry.performChanged performed) consistent

theorem afterConsistent (consistent : d.registry.Consistent) (requests : List Request) :
    (d.after requests).registry.Consistent := by
  induction requests generalizing d with
  | nil => exact consistent
  | cons request rest ih => exact ih (handleConsistent consistent request)

theorem handleGrows (d : Debugger) (plain : ∀ asked, request ≠ .registry asked) :
    d.registry.coverage.Grows (d.handle request).2.registry.coverage := by
  have recorded := handleRecorded d request
  generalize (d.handle request).2.registry = next at recorded ⊢
  cases recorded with
  | still => exact Coverage.growsRefl d.registry.coverage
  | drove _ _ grows => exact grows
  | changed same => exact absurd same (plain _)

-- Told of everything that was ever asked of a debugger. Invocations leave no trace, and flags are put
-- down by no request but those to the registry.
theorem coverageExact (chain : Snapshot) (config : Config) (requests : List Request) :
    let d (n : Nat) := (create chain config).after (requests.take n)
    let last := d requests.length
    (∀ contract p offset, last.registry.profile? contract = some p → offset ∈ p.map.opcodes →
      ∃ flag, last.registry.coverage.flag? contract offset = some flag ∧
        (flag = true ↔
          ∃ i request, requests[i]? = some request ∧ (d i).Visits request contract offset ∧
            ∀ j later, i < j → requests[j]? = some later → ¬ (d j).Resets later contract)) ∧
    (∀ i, (last.handle (.invoke i)).2.registry = last.registry) ∧
    ∀ request, (∀ asked, request ≠ .registry asked) →
      last.registry.coverage.Grows (last.handle request).2.registry.coverage := by
  intro d last
  have whole : last = (create chain config).after requests := by
    simp only [last, d, List.take_length]
  have consistent : last.registry.Consistent := by
    rw [whole]
    exact afterConsistent Registry.consistentEmpty requests
  refine ⟨fun contract p offset known listed => ?_,fun i => ?_,fun request plain => ?_⟩
  · have tracked := Registry.profileTracked consistent known listed
    obtain ⟨flag,found⟩ := Option.isSome_iff_exists.mp tracked
    have exact := flagAfter (create chain config) requests contract offset
    rw [← whole, found] at exact
    refine ⟨flag,found,?_⟩
    have fresh : (create chain config).registry.coverage.flag? contract offset = none := by
      simp [create, Coverage.flag?]
    simpa [fresh, VisitedSince] using exact
  · rw [handleInvoke]
    cases last.engineFor i <;> rfl
  · exact handleGrows last plain

end Debugger

end ScriptDebugger
