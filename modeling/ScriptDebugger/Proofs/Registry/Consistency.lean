import ScriptDebugger.Proofs.Registry.Breakpoints
import ScriptDebugger.Proofs.Stepping.Coverage
import ScriptDebugger.Request

/-! The tables of a registry agree at all times. A contract is covered while it is known, for the
instructions of the dump it was last made known with and no others, and has breakpoints on lines only
while it is known. Requests touch the contracts they name, and runs only raise flags of the coverage. -/
namespace ScriptDebugger

theorem keysOf {α β : Type} {a : Std.ExtTreeMap Nat α} {b : Std.ExtTreeMap Nat β}
    (same : ∀ offset : Nat, offset ∈ a ↔ offset ∈ b) : a.keys = b.keys := by
  have marks : a.map (fun _ _ => ()) = b.map (fun _ _ => ()) := by
    refine Std.ExtTreeMap.ext_mem_unit fun offset => ?_
    rw [Std.ExtTreeMap.mem_map, Std.ExtTreeMap.mem_map, same]
  have keys := congrArg Std.ExtTreeMap.keys marks
  rwa [Std.ExtTreeMap.keys_map, Std.ExtTreeMap.keys_map] at keys

namespace SourceMap

structure Aligned (m : SourceMap) : Prop where
  dense (offset : Nat) : offset ∈ m.dense ↔ offset ∈ m.opcodes
  lineStarts (offset : Nat) (starts : offset ∈ m.lineStarts) : offset ∈ m.opcodes

theorem alignedAddOpcode {b : Builder} (aligned : b.map.Aligned) (offset : Nat) (opcode : Opcode) :
    (b.addOpcode offset opcode).map.Aligned := by
  have dense (other : Nat) : other ∈ b.map.dense.insert offset b.context ↔
      other ∈ b.map.opcodes.insert offset opcode := by
    rw [Std.ExtTreeMap.mem_insert, Std.ExtTreeMap.mem_insert, aligned.dense]
  have grown {other : Nat} (before : other ∈ b.map.lineStarts) :
      other ∈ b.map.opcodes.insert offset opcode :=
    Std.ExtTreeMap.mem_insert.mpr (.inr (aligned.lineStarts other before))
  unfold Builder.addOpcode
  cases b.pending with
  | none => exact ⟨dense,fun _ => grown⟩
  | some line =>
    refine ⟨dense,fun other starts => ?_⟩
    rcases Std.ExtTreeMap.mem_insert.mp starts with same | before
    · exact Std.ExtTreeMap.mem_insert.mpr (.inl same)
    · exact grown before

theorem alignedAdd {b c : Builder} {number : Nat} {line : DumpLine} (aligned : b.map.Aligned)
    (added : b.add number line = .ok c) : c.map.Aligned := by
  cases line with
  | opcode offset mnemonic operand =>
    unfold Builder.add at added
    dsimp only at added
    split at added
    · cases added
      exact alignedAddOpcode aligned offset _
    · contradiction
  | source | methodStart | methodEnd =>
    cases added
    exact aligned

theorem alignedLines {lines : List (Nat × DumpLine)} {b c : Builder} (aligned : b.map.Aligned)
    (added : lines.foldlM (fun (b : Builder) (number,line) => b.add number line) b = .ok c) :
    c.map.Aligned := by
  induction lines generalizing b with
  | nil =>
    cases added
    exact aligned
  | cons head rest ih =>
    obtain ⟨number,line⟩ := head
    rw [List.foldlM_cons] at added
    dsimp only at added
    cases first : b.add number line with
    | error cause => rw [first] at added; contradiction
    | ok next =>
      rw [first] at added
      exact ih (alignedAdd aligned first) added

theorem alignedBuild {dump : String} {m : SourceMap} (built : build dump = .ok m) : m.Aligned := by
  unfold build at built
  cases added : (recognised dump).foldlM
      (fun (b : Builder) (number,line) => b.add number line) {} with
  | error cause => rw [added] at built; contradiction
  | ok b =>
    rw [added] at built
    cases built
    refine alignedLines ⟨fun offset => ?_,fun offset starts => ?_⟩ added
    · simp
    · simp at starts

end SourceMap

def RegistryRequest.contracts : RegistryRequest → List ContractHash
  | debugInfos => []
  | deleteDebugInfo contracts => contracts
  | setDebugInfo contract _ _ | filenames contract | setAssembly contract _ | assembly contract
  | deleteAssembly contract _ | setSource contract _ | source contract | deleteSource contract _
  | locations contract | coverage contract | clearCoverage contract => [contract]

-- The contract whose flags the request puts down.
def RegistryRequest.resets? : RegistryRequest → Option ContractHash
  | setDebugInfo contract _ _ | clearCoverage contract => some contract
  | _ => none

namespace Registry

-- What a request that is granted does to the tables.
inductive Performed (r : Registry) : RegistryRequest → Registry → Prop where
  | answered {request : RegistryRequest} (quiet : request.resets? = none) : Performed r request r
  | learnt {contract : ContractHash} {metadata dump : String} {p : Profile}
      (read : Profile.ofTexts contract metadata dump = .ok p) :
      Performed r (.setDebugInfo contract metadata dump)
        { r with
          profiles := r.profiles.insert contract p
          coverage := r.coverage.seed contract p.map.opcodes.keys }
  | forgotten {contracts : List ContractHash} :
      Performed r (.deleteDebugInfo contracts) (contracts.foldl forget r)
  | assembly {request : RegistryRequest} (quiet : request.resets? = none) {contract : ContractHash}
      (named : contract ∈ request.contracts) (assembly : Std.ExtTreeSet Nat) :
      Performed r request
        { r with
          breakpoints := r.breakpoints.insert contract
            { r.breakpoints.of contract with assembly } }
  | source {request : RegistryRequest} (quiet : request.resets? = none) {contract : ContractHash}
      (named : contract ∈ request.contracts) (known : (r.profile? contract).isSome = true)
      (source : Std.ExtTreeSet SourceLocation) :
      Performed r request
        { r with
          breakpoints := r.breakpoints.insert contract
            { r.breakpoints.of contract with source } }
  | cleared {contract : ContractHash} :
      Performed r (.clearCoverage contract) { r with coverage := r.coverage.clear contract }

-- What a request that is granted may do, each of its changes to a contract it names.
inductive Changed (r : Registry) (contracts : List ContractHash) : Registry → Prop where
  | nothing : Changed r contracts r
  | learnt {contract : ContractHash} {metadata dump : String} {p : Profile}
      (named : contract ∈ contracts) (read : Profile.ofTexts contract metadata dump = .ok p) :
      Changed r contracts
        { r with
          profiles := r.profiles.insert contract p
          coverage := r.coverage.seed contract p.map.opcodes.keys }
  | forgotten : Changed r contracts (contracts.foldl forget r)
  | assembly {contract : ContractHash} (named : contract ∈ contracts)
      (assembly : Std.ExtTreeSet Nat) :
      Changed r contracts
        { r with
          breakpoints := r.breakpoints.insert contract
            { r.breakpoints.of contract with assembly } }
  | source {contract : ContractHash} (named : contract ∈ contracts)
      (known : (r.profile? contract).isSome = true) (source : Std.ExtTreeSet SourceLocation) :
      Changed r contracts
        { r with
          breakpoints := r.breakpoints.insert contract
            { r.breakpoints.of contract with source } }
  | cleared {contract : ContractHash} (named : contract ∈ contracts) :
      Changed r contracts { r with coverage := r.coverage.clear contract }

theorem deletedFrom (r : Registry) (contracts : List ContractHash)
    (answers : Std.ExtTreeMap ContractHash Bool) :
    (contracts.foldl (fun (answers,r) contract =>
      (answers.insert contract (r.profile? contract).isSome,r.forget contract)) (answers,r)).2 =
      contracts.foldl forget r := by
  induction contracts generalizing r answers with
  | nil => rfl
  | cons head tail ih => exact ih _ _

theorem granted {α β : Type} {result : Result α} {next : α → Result β} {y : β}
    (ran : (result >>= next) = .ok y) : ∃ x, result = .ok x ∧ next x = .ok y := by
  cases result with
  | error cause => contradiction
  | ok x => exact ⟨x,rfl,ran⟩

theorem discarded {α : Type} {result : Result α} {u : PUnit} (ran : discard result = .ok u) :
    ∃ x, result = .ok x := by
  cases result with
  | error cause => contradiction
  | ok x => exact ⟨x,rfl⟩

theorem profileFound {r : Registry} {contract : ContractHash} {p : Profile}
    (known : r.profile? contract = some p) : r.profile contract = .ok p := by
  rw [profile, known]
  rfl

theorem profileKnown {r : Registry} {contract : ContractHash} {p : Profile}
    (known : r.profile contract = .ok p) : (r.profile? contract).isSome = true := by
  unfold profile at known
  split at known
  · next found => rw [found]; rfl
  · contradiction

theorem requestPerformed {r next : Registry} {request : RegistryRequest} {answer : Answer}
    (performed : request.perform r = .ok (answer,next)) : Performed r request next := by
  cases request with
  | setDebugInfo contract metadata dump =>
    obtain ⟨after,learnt,same⟩ := granted performed
    obtain ⟨p,read,put⟩ := granted learnt
    cases same
    cases put
    exact .learnt read
  | deleteDebugInfo contracts =>
    cases performed
    have same := deletedFrom r contracts ∅
    exact same ▸ .forgotten
  | setAssembly contract offsets =>
    obtain ⟨after,put,same⟩ := granted performed
    cases same
    unfold setAssemblyBreakpoints Breakpoints.addAssembly at put
    dsimp only at put
    split at put
    · split at put
      · contradiction
      · cases put
        exact .assembly rfl (.head _) _
    · cases put
      exact .assembly rfl (.head _) _
  | deleteAssembly contract offsets =>
    cases performed
    change Performed r _
      { r with breakpoints := (r.breakpoints.removeAssembly contract offsets).2 }
    rcases r.breakpoints.removeAssemblyLeaves contract offsets with same | ⟨left,same⟩
    · rw [same]
      exact .answered rfl
    · rw [same]
      exact .assembly rfl (.head _) left
  | setSource contract lines =>
    obtain ⟨after,put,same⟩ := granted performed
    obtain ⟨p,known,checked⟩ := granted put
    cases same
    dsimp only at checked
    split at checked
    · contradiction
    · cases checked
      exact .source rfl (.head _) (profileKnown known) _
  | deleteSource contract lines =>
    obtain ⟨after,put,same⟩ := granted performed
    cases same
    obtain ⟨_,checked,put⟩ := granted put
    obtain ⟨p,known⟩ := discarded checked
    cases put
    change Performed r _ { r with breakpoints := (r.breakpoints.removeSource contract lines).2 }
    rcases r.breakpoints.removeSourceLeaves contract lines with same | ⟨left,same⟩
    · rw [same]
      exact .answered rfl
    · rw [same]
      exact .source rfl (.head _) (profileKnown known) left
  | clearCoverage contract =>
    obtain ⟨after,put,same⟩ := granted performed
    cases same
    obtain ⟨_,_,put⟩ := granted put
    cases put
    exact .cleared
  | debugInfos | assembly =>
    cases performed
    exact .answered rfl
  | filenames | source | locations | coverage =>
    obtain ⟨_,_,same⟩ := granted performed
    cases same
    exact .answered rfl

theorem performChanged {r next : Registry} {request : RegistryRequest} {answer : Answer}
    (performed : request.perform r = .ok (answer,next)) : Changed r request.contracts next := by
  cases requestPerformed performed with
  | answered => exact .nothing
  | learnt read => exact .learnt (.head _) read
  | forgotten => exact .forgotten
  | assembly _ named breakpoints => exact .assembly named breakpoints
  | source _ named known breakpoints => exact .source named known breakpoints
  | cleared => exact .cleared (.head _)

def Untouched (r next : Registry) (contract : ContractHash) : Prop :=
  next.profile? contract = r.profile? contract ∧
    next.breakpoints[contract]? = r.breakpoints[contract]? ∧
    next.coverage[contract]? = r.coverage[contract]?

theorem forgetUntouched (r : Registry) {contract gone : ContractHash} (apart : gone ≠ contract) :
    Untouched r (r.forget gone) contract := by
  simp [Untouched, forget, profile?, Std.ExtTreeMap.getElem?_erase, apart]

theorem changedUntouched {r next : Registry} {contracts : List ContractHash}
    (changed : Changed r contracts next) {contract : ContractHash}
    (elsewhere : contract ∉ contracts) : Untouched r next contract := by
  have apart {named : ContractHash} (listed : named ∈ contracts) : named ≠ contract := by
    rintro rfl
    exact elsewhere listed
  cases changed with
  | nothing => exact ⟨rfl,rfl,rfl⟩
  | learnt named _ =>
    simp [Untouched, profile?, Coverage.seed, Std.ExtTreeMap.getElem?_insert, apart named]
  | assembly named _ | source named _ _ =>
    simp [Untouched, profile?, Std.ExtTreeMap.getElem?_insert, apart named]
  | cleared named =>
    simp [Untouched, profile?, Coverage.clear, Std.ExtTreeMap.getElem?_modify, apart named]
  | forgotten =>
    clear apart
    induction contracts generalizing r with
    | nil => exact ⟨rfl,rfl,rfl⟩
    | cons head tail ih =>
      rw [List.mem_cons, not_or] at elsewhere
      obtain ⟨profile,breakpoints,coverage⟩ := forgetUntouched r (Ne.symm elsewhere.1)
      obtain ⟨profile',breakpoints',coverage'⟩ := @ih (r.forget head) elsewhere.2
      exact ⟨profile'.trans profile,breakpoints'.trans breakpoints,coverage'.trans coverage⟩

end Registry

def Profile.Covered (p : Profile) (flags : Flags) : Prop :=
  p.map.Aligned ∧ ∀ offset : Nat, offset ∈ flags ↔ offset ∈ p.map.opcodes

namespace Registry

structure Consistent (r : Registry) : Prop where
  covered (contract : ContractHash) :
    Option.Rel Profile.Covered (r.profile? contract) r.coverage[contract]?
  unknown (contract : ContractHash) (missing : r.profile? contract = none) :
    (r.breakpoints.of contract).source = ∅

theorem consistentEmpty : ({} : Registry).Consistent := by
  refine ⟨fun contract => ?_,fun contract _ => ?_⟩
  · rw [profile?, Std.ExtTreeMap.getElem?_empty, Std.ExtTreeMap.getElem?_empty]
    exact .none
  · simp [Breakpoints.of]

-- Only the contract that a change names has to be looked at.
theorem consistentAt {r next : Registry} (consistent : r.Consistent) {contract : ContractHash}
    (changed : Changed r [contract] next)
    (covered : Option.Rel Profile.Covered (next.profile? contract) next.coverage[contract]?)
    (unknown : next.profile? contract = none → (next.breakpoints.of contract).source = ∅) :
    next.Consistent := by
  have untouched {other : ContractHash} (apart : contract ≠ other) : Untouched r next other :=
    changedUntouched changed fun listed => apart (List.mem_singleton.mp listed).symm
  refine ⟨fun other => ?_,fun other missing => ?_⟩
  · by_cases same : contract = other
    · exact same ▸ covered
    · obtain ⟨profile,_,coverage⟩ := untouched same
      rw [profile, coverage]
      exact consistent.covered other
  · by_cases same : contract = other
    · subst same
      exact unknown missing
    · obtain ⟨profile,breakpoints,_⟩ := untouched same
      rw [Breakpoints.of, breakpoints]
      exact consistent.unknown other (profile ▸ missing)

theorem consistentForget {r : Registry} (consistent : r.Consistent) (gone : ContractHash) :
    (r.forget gone).Consistent := by
  refine consistentAt consistent .forgotten ?_ fun _ => ?_
  · simp only [profile?, forget, Std.ExtTreeMap.getElem?_erase_self]
    exact .none
  · simp [forget, Breakpoints.of]

theorem consistentLearnt {r : Registry} (consistent : r.Consistent) {contract : ContractHash}
    {metadata dump : String} {p : Profile} (read : Profile.ofTexts contract metadata dump = .ok p) :
    Consistent
      { r with
        profiles := r.profiles.insert contract p
        coverage := r.coverage.seed contract p.map.opcodes.keys } := by
  have covered : p.Covered (.ofList (p.map.opcodes.keys.map (·,false))) := by
    obtain ⟨info,_,rest⟩ := granted read
    obtain ⟨map,built,made⟩ := granted rest
    cases made
    refine ⟨SourceMap.alignedBuild built,fun offset => ?_⟩
    simp [Std.ExtTreeMap.mem_ofList]
  refine consistentAt consistent (.learnt (.head _) read) ?_ fun missing => ?_
  · simp only [profile?, Coverage.seed, Std.ExtTreeMap.getElem?_insert_self]
    exact .some covered
  · simp [profile?] at missing

theorem consistentCleared {r : Registry} (consistent : r.Consistent) (contract : ContractHash) :
    Consistent { r with coverage := r.coverage.clear contract } := by
  refine consistentAt consistent (.cleared (.head _)) ?_ (consistent.unknown contract)
  simp only [Coverage.clear, Std.ExtTreeMap.getElem?_modify_self]
  have covered := consistent.covered contract
  change Option.Rel _ (r.profile? contract) _
  generalize r.profile? contract = known at covered ⊢
  generalize r.coverage[contract]? = flags at covered ⊢
  cases covered with
  | none => exact .none
  | some covers =>
    refine .some ⟨covers.1,fun offset => ?_⟩
    rw [Std.ExtTreeMap.mem_map]
    exact covers.2 offset

theorem consistentChanged {r next : Registry} {contracts : List ContractHash}
    (changed : Changed r contracts next) (consistent : r.Consistent) : next.Consistent := by
  cases changed with
  | nothing => exact consistent
  | learnt _ read => exact consistentLearnt consistent read
  | @assembly contract _ assembly =>
    refine consistentAt consistent (.assembly (.head _) assembly) (consistent.covered contract)
      fun missing => ?_
    simp only [Breakpoints.of, Std.ExtTreeMap.getElem?_insert_self]
    exact consistent.unknown contract missing
  | @source contract _ known source =>
    refine consistentAt consistent (.source (.head _) known source) (consistent.covered contract)
      fun missing => ?_
    rw [show r.profile? contract = none from missing] at known
    contradiction
  | @cleared contract _ => exact consistentCleared consistent contract
  | forgotten =>
    induction contracts generalizing r with
    | nil => exact consistent
    | cons head tail ih => exact ih (consistentForget consistent head)

theorem consistentGrows {r : Registry} {coverage : Coverage} (consistent : r.Consistent)
    (grows : r.coverage.Grows coverage) : Consistent { r with coverage } := by
  refine ⟨fun contract => ?_,consistent.unknown⟩
  have covered := consistent.covered contract
  have raised := grows contract
  change Option.Rel _ (r.profile? contract) coverage[contract]?
  generalize r.profile? contract = known at covered ⊢
  generalize r.coverage[contract]? = before at covered raised
  generalize coverage[contract]? = after at raised ⊢
  cases raised with
  | none =>
    cases covered
    exact .none
  | some raised =>
    cases covered with
    | some covers =>
      refine .some ⟨covers.1,fun offset => ?_⟩
      exact (Coverage.raisedKeys raised offset).trans (covers.2 offset)

inductive Event where
  | request (request : RegistryRequest)
  | run (e : Engine) (command : Run.Drive)

def happen (r : Registry) : Event → Registry
  | .request request =>
    match request.perform r with
    | .ok (_,next) => next
    | .error _ => r
  | .run e command => { r with coverage := (Run.drive r ⟨e,r.coverage⟩ command).coverage }

theorem happenChanged (r : Registry) (request : RegistryRequest) :
    Changed r request.contracts (r.happen (.request request)) := by
  unfold happen
  dsimp only
  split
  · next performed => exact performChanged performed
  · exact .nothing

theorem consistentHappen {r : Registry} (consistent : r.Consistent) (event : Event) :
    (r.happen event).Consistent := by
  cases event with
  | request request => exact consistentChanged (happenChanged r request) consistent
  | run e command => exact consistentGrows consistent (Run.driveCovers r ⟨e,r.coverage⟩ command)

theorem consistentAfter {r : Registry} (consistent : r.Consistent) (events : List Event) :
    (events.foldl happen r).Consistent := by
  induction events generalizing r with
  | nil => exact consistent
  | cons event rest ih => exact ih (consistentHappen consistent event)

theorem tablesAgree (events : List Event) :
    let r := events.foldl happen {}
    (∀ contract : ContractHash,
      (contract ∈ r.coverage ↔ (r.profile? contract).isSome = true) ∧
      (r.profile? contract = none → (r.breakpoints.of contract).source = ∅) ∧
      ∀ p flags, r.profile? contract = some p → r.coverage[contract]? = some flags →
        flags.keys = p.map.opcodes.keys ∧ p.map.dense.keys = p.map.opcodes.keys ∧
          ∀ offset ∈ p.map.lineStarts, offset ∈ flags) ∧
    (∀ (request : RegistryRequest) (contract : ContractHash), contract ∉ request.contracts →
      r.Untouched (r.happen (.request request)) contract) ∧
    ∀ (e : Engine) (command : Run.Drive),
      let next := r.happen (.run e command)
      next.profiles = r.profiles ∧ next.breakpoints = r.breakpoints ∧
        r.coverage.Grows next.coverage := by
  intro r
  have consistent : r.Consistent := consistentAfter consistentEmpty events
  refine ⟨fun contract => ⟨?_,consistent.unknown contract,fun p flags known covers => ?_⟩,
    fun request contract elsewhere => changedUntouched (happenChanged r request) elsewhere,
    fun e command => ⟨rfl,rfl,Run.driveCovers r ⟨e,r.coverage⟩ command⟩⟩
  · rw [Std.ExtTreeMap.mem_iff_isSome_getElem?]
    have covered := consistent.covered contract
    generalize r.profile? contract = known at covered ⊢
    generalize r.coverage[contract]? = flags at covered ⊢
    cases covered <;> simp
  · have covered := consistent.covered contract
    rw [known, covers] at covered
    cases covered with
    | some covered =>
      obtain ⟨aligned,own⟩ := covered
      exact ⟨keysOf own,keysOf aligned.dense,fun offset starts =>
        (own offset).mpr (aligned.lineStarts offset starts)⟩

end Registry

end ScriptDebugger
