import ScriptDebugger.Proofs.Stepping.Course

/-! Where Continue stops. Plain execution is laid out as its moves, from one engine to the next, and
Continue, given again and again, stops after those that arrive at a breakpoint. It does not look
after a move that only ends a frame past the end of its script: a breakpoint arrived at in this way
is passed over. -/
namespace ScriptDebugger

namespace Engine

def moves : Nat → Engine → List (Engine × Engine)
  | 0, _ => []
  | count + 1, e =>
    if e.state.isTerminal then [] else (e,e.executeNext) :: moves count e.executeNext

def course (e : Engine) : List (Engine × Engine) := moves e.rank e

theorem movesOfTerminal {e : Engine} (ended : e.state.isTerminal = true) (count : Nat) :
    moves count e = [] := by
  cases count with
  | zero => rfl
  | succ count => rw [moves, if_pos ended]

theorem movesAgree {m n : Nat} {e : Engine} (left : e.rank ≤ m) (right : e.rank ≤ n) :
    moves m e = moves n e := by
  induction m generalizing n e with
  | zero =>
    cases ended : e.state.isTerminal with
    | true => rw [movesOfTerminal ended, movesOfTerminal ended]
    | false =>
      have lower := rankDecreases ended
      omega
  | succ m ih =>
    cases ended : e.state.isTerminal with
    | true => rw [movesOfTerminal ended, movesOfTerminal ended]
    | false =>
      have lower := rankDecreases ended
      have same := @ih n.pred e.executeNext (by omega) (by rw [Nat.pred_eq_sub_one]; omega)
      cases n with
      | zero => omega
      | succ n => simp only [moves, ended, Bool.false_eq_true, if_false, same, Nat.pred_succ]

theorem courseOfTerminal {e : Engine} (ended : e.state.isTerminal = true) : course e = [] :=
  movesOfTerminal ended e.rank

theorem courseOfAlive {e : Engine} (alive : e.state.isTerminal = false) :
    course e = (e,e.executeNext) :: course e.executeNext := by
  have lower := rankDecreases alive
  obtain ⟨left,rank⟩ := Nat.exists_eq_succ_of_ne_zero (Nat.ne_of_gt (Nat.zero_lt_of_lt lower))
  rw [course, rank, moves, if_neg (by simp [alive]),
    movesAgree (m := left) (n := e.executeNext.rank) (by omega) (Nat.le_refl _), course]

theorem courseAt (e : Engine) (n : Nat) :
    (course e)[n]? = if (executeNext^[n] e).state.isTerminal then none
      else some (executeNext^[n] e,executeNext^[n + 1] e) := by
  induction n generalizing e with
  | zero =>
    cases ended : e.state.isTerminal with
    | true => simp [courseOfTerminal ended, ended]
    | false => simp [courseOfAlive ended, ended]
  | succ n ih =>
    cases ended : e.state.isTerminal with
    | true => simp [courseOfTerminal ended, iterateOfTerminal ended, ended]
    | false =>
      rw [courseOfAlive ended, List.getElem?_cons_succ, ih]
      rfl

theorem courseAwake (e : Engine) : course e.awake = (course e).map (Prod.map awake awake) := by
  apply List.ext_getElem?
  intro n
  rw [List.getElem?_map, courseAt, courseAt, ← awakeIterate, ← awakeIterate, awakeTerminal]
  split <;> rfl

def breakpoint? (r : Registry) (e : Engine) : Option StopReason :=
  match e.frames with
  | [] => none
  | f :: _ =>
    if r.breakpoints.hasAssembly f.contract f.position then some .assemblyBreakpoint
    else match (r.profile? f.contract).bind fun p => p.map.lineStart? f.position with
      | none => none
      | some line =>
        if r.breakpoints.hasSource f.contract line.location then some .sourceBreakpoint else none

def stop? (r : Registry) (e : Engine) : Option (StopReason × Engine) :=
  if e.state.isTerminal then none
  else (e.breakpoint? r).map fun reason => (reason,e.setState .suspended)

theorem stopAwake (r : Registry) (e : Engine) : e.awake.stop? r = e.stop? r := by
  unfold awake
  split
  · next paused =>
    simp only [stop?, setState, paused]
    rfl
  · rfl

theorem awakeRunning {e : Engine} (alive : e.state.isTerminal = false) :
    e.awake.state = .running := by
  unfold awake
  cases state : e.state with
  | halted | faulted => simp [state, VmState.isTerminal] at alive
  | running => simp [state]
  | suspended => rfl

theorem nextAwake (e : Engine) : e.awake.next? = e.next? := by
  unfold awake
  split <;> rfl

end Engine

namespace Run

theorem reasonHereBreakpoint (r : Registry) (e : Engine) :
    reasonHere r .breakpoint e = e.breakpoint? r := by
  have assembly : StopReason.breakpoint.contains .assemblyBreakpoint = true := by decide
  have source : StopReason.breakpoint.contains .sourceBreakpoint = true := by decide
  have noLine : StopReason.breakpoint.contains .sourceLine = false := by decide
  unfold reasonHere Engine.breakpoint?
  cases e.frames with
  | nil => rfl
  | cons f rest =>
    simp only [List.head?_cons, Option.bind_eq_bind, Option.bind_some, assembly, source, noLine,
      Bool.true_and, Bool.false_and, Bool.false_eq_true, if_false]
    generalize (r.profile? f.contract).bind (fun p => p.map.lineStart? f.position) = line
    split
    · rfl
    · cases line with
      | none => rfl
      | some line =>
        dsimp only [Option.map_some, Option.getD_some]
        split <;> rfl

-- The stop after a move. Nothing is looked for after one that no instruction made.
def seen (r : Registry) (m : Engine × Engine) : Option (StopReason × Engine) :=
  if m.1.next?.isSome then m.2.stop? r else none

theorem advanceContinue (r : Registry) {run : Run} (alive : run.engine.state.isTerminal = false) :
    advance r .breakpoint run =
      match seen r (run.engine,run.engine.executeNext) with
      | some (reason,_) => (reason,run.step.suspend)
      | none => (.none,run.step) := by
  have after : run.step.engine = run.engine.executeNext := rfl
  rw [advancePlain alive (by decide) (by decide), reasonHereBreakpoint, after]
  unfold seen Engine.stop?
  cases run.engine.next?.isSome with
  | false => simp
  | true =>
    cases run.engine.executeNext.state.isTerminal with
    | true => simp
    | false => cases run.engine.executeNext.breakpoint? r <;> simp

theorem seenAwake (r : Registry) (e : Engine) :
    (Engine.course e.awake).filterMap (seen r) = (Engine.course e).filterMap (seen r) := by
  rw [Engine.courseAwake, List.filterMap_map]
  congr 1
  funext m
  simp only [Function.comp, Prod.map, seen, Engine.nextAwake, Engine.stopAwake]

theorem seenState (r : Registry) {e : Engine} {state : VmState}
    (alive : e.state.isTerminal = false) (other : state.isTerminal = false) :
    (Engine.course (e.setState state)).filterMap (seen r) =
      (Engine.course e).filterMap (seen r) := by
  rw [← seenAwake, Engine.awakeSetState alive other, seenAwake]

theorem seenStop {r : Registry} {m : Engine × Engine} {stop : StopReason × Engine}
    (found : seen r m = some stop) :
    m.2.state.isTerminal = false ∧ stop.2 = m.2.setState .suspended := by
  unfold seen Engine.stop? at found
  split at found
  · split at found
    · contradiction
    · next alive =>
      obtain ⟨reason,_,same⟩ := Option.map_eq_some_iff.mp found
      exact ⟨Bool.eq_false_iff.mpr alive,by rw [← same]⟩
  · contradiction

theorem seenContinue (r : Registry) {run : Run} (running : run.engine.state = .running) :
    (Engine.course run.engine).filterMap (seen r) =
      let out := runUntil r .breakpoint run
      if out.2.engine.state.isTerminal then []
      else (out.1,out.2.engine) :: (Engine.course out.2.engine).filterMap (seen r) := by
  fun_induction runUntil r .breakpoint run with
  | case1 run reason next advanced onward ih =>
    have alive : run.engine.state.isTerminal = false := by rw [running]; rfl
    rw [advanceContinue r alive] at advanced
    rw [← ih onward, Engine.courseOfAlive alive, List.filterMap_cons]
    cases found : seen r (run.engine,run.engine.executeNext) with
    | some stop =>
      rw [found] at advanced
      cases advanced
      contradiction
    | none =>
      rw [found] at advanced
      cases advanced
      rfl
  | case2 run reason next advanced stopped =>
    have alive : run.engine.state.isTerminal = false := by rw [running]; rfl
    rw [advanceContinue r alive] at advanced
    rw [Engine.courseOfAlive alive, List.filterMap_cons]
    cases found : seen r (run.engine,run.engine.executeNext) with
    | some stop =>
      rw [found] at advanced
      cases advanced
      obtain ⟨runs,stands⟩ := seenStop found
      have rest := @seenState r _ .suspended runs rfl
      obtain ⟨reason,e⟩ := stop
      cases stands
      exact congrArg (List.cons _) rest.symm
    | none =>
      rw [found] at advanced
      cases advanced
      have ended : run.step.engine.state.isTerminal = true := stepEnded running stopped
      simp only [ended, if_true]
      rw [show run.engine.executeNext = run.step.engine from rfl, Engine.courseOfTerminal ended]
      rfl

theorem rankRunUntil {r : Registry} {required : StopReason} {run : Run}
    (alive : (runUntil r required run).2.engine.state.isTerminal = false) :
    (runUntil r required run).2.engine.rank < run.engine.rank := by
  fun_induction runUntil r required run with
  | case1 run reason next advanced running ih =>
    have first := @rankAdvance r required run
    rw [advanced] at first
    exact Nat.lt_trans (ih alive) (first (by rw [running]; rfl))
  | case2 run reason next advanced stopped =>
    have first := @rankAdvance r required run
    rw [advanced] at first
    exact first alive

theorem resumeContinue {r : Registry} {run next : Run} {reason : StopReason}
    (resumed : resume r .resume run = .ok (reason,next)) :
    run.engine.state.isTerminal = false ∧
      runUntil r .breakpoint { run with engine := run.engine.awake } = (reason,next) := by
  cases ended : run.engine.state.isTerminal with
  | true => rw [resumeOfTerminal r .resume ended] at resumed; contradiction
  | false =>
    rw [resumeOfAlive r .resume ended] at resumed
    exact ⟨rfl,Except.ok.inj resumed⟩

def stops (r : Registry) (run : Run) : List (StopReason × Engine) :=
  match _resumed : resume r .resume run with
  | .error _ => []
  | .ok (reason,next) =>
    if _ended : next.engine.state.isTerminal then [] else (reason,next.engine) :: stops r next
termination_by run.engine.rank
decreasing_by
  have lower := @rankRunUntil r .breakpoint { run with engine := run.engine.awake }
  rw [(resumeContinue _resumed).2, Engine.rankAwake] at lower
  exact lower (Bool.eq_false_iff.mpr _ended)

theorem seenResume {r : Registry} {run next : Run} {reason : StopReason}
    (resumed : resume r .resume run = .ok (reason,next)) :
    (Engine.course run.engine).filterMap (seen r) =
      if next.engine.state.isTerminal then []
      else (reason,next.engine) :: (Engine.course next.engine).filterMap (seen r) := by
  obtain ⟨alive,out⟩ := resumeContinue resumed
  have running : run.engine.awake.state = .running := Engine.awakeRunning alive
  have first := @seenContinue r { run with engine := run.engine.awake } running
  rw [out, seenAwake] at first
  exact first

theorem stopsSeen (r : Registry) (run : Run) :
    stops r run = (Engine.course run.engine).filterMap (seen r) := by
  fun_induction stops r run with
  | case1 run cause refused =>
    cases ended : run.engine.state.isTerminal with
    | true => rw [Engine.courseOfTerminal ended]; rfl
    | false => rw [resumeOfAlive r .resume ended] at refused; contradiction
  | case2 run reason next resumed ended =>
    rw [seenResume resumed, if_pos ended]
  | case3 run reason next resumed alive ih =>
    rw [seenResume resumed, if_neg alive, ih]

theorem filterMapWhere {α β : Type} (f : α → Option β) (p : α → Bool) (l : List α) :
    (l.filter p).filterMap f = l.filterMap f ↔ ∀ x ∈ l, p x = false → f x = none := by
  induction l with
  | nil => simp
  | cons x l ih =>
    have shorter : ((l.filter p).filterMap f).length ≤ (l.filterMap f).length :=
      (List.filter_sublist.filterMap f).length_le
    cases kept : p x with
    | true =>
      rw [List.filter_cons_of_pos kept]
      cases found : f x with
      | none => simp [found, kept, ih]
      | some y => simp [found, kept, ih]
    | false =>
      rw [List.filter_cons_of_neg (by simp [kept])]
      cases found : f x with
      | none => simp [found, ih]
      | some y =>
        simp only [List.filterMap_cons, found, List.mem_cons, forall_eq_or_imp, kept]
        constructor
        · intro same
          rw [same, List.length_cons] at shorter
          exact absurd shorter (Nat.not_succ_le_self _)
        · intro all
          simp at all

-- Continue stops at every breakpoint that plain execution arrives at by an instruction, and at no
-- other engine. All breakpoints are stopped at exactly where none is arrived at by a frame that
-- runs past the end of its script.
theorem continueStops (r : Registry) (run : Run) :
    stops r run =
        ((Engine.course run.engine).filter fun m => m.1.next?.isSome).filterMap
          (fun m => m.2.stop? r) ∧
      (stops r run = (Engine.course run.engine).filterMap (fun m => m.2.stop? r) ↔
        ∀ m ∈ Engine.course run.engine, m.1.next? = none → m.2.stop? r = none) := by
  have exactly : stops r run =
      ((Engine.course run.engine).filter fun m => m.1.next?.isSome).filterMap
        (fun m => m.2.stop? r) := by
    rw [stopsSeen, List.filterMap_filter]
    rfl
  refine ⟨exactly,?_⟩
  rw [exactly, filterMapWhere]
  simp only [Option.isSome_eq_false_iff, Option.isNone_iff_eq_none]

-- A call at 0 of the routine at 4, which runs past the end and so returns to the breakpoint at 2.
theorem continuePassesBreakpoint :
    let contract : ContractHash := .zero
    let e : Engine :=
      { frames := [{ contract, script := [0x34,4,0x21,0x40,0x21], entry := .script }]
        gasLimit := 10, ledger := .empty }
    let r : Registry := { breakpoints := (Breakpoints.addAssembly ∅ contract [2]).2 }
    e.state.isTerminal = false ∧
      stops r ⟨e,∅⟩ ≠ (Engine.course e).filterMap (fun m => m.2.stop? r) := by
  intro contract e r
  refine ⟨rfl,?_⟩
  intro same
  have lengths := congrArg List.length same
  rw [stopsSeen] at lengths
  revert lengths
  decide +kernel

end Run

end ScriptDebugger
