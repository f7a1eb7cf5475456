import Mathlib
import MarketingAgents.Domain.CanonicalWriting
import MarketingAgents.Domain.PolicyHash
import MarketingAgents.Domain.Validation
import MarketingAgents.Library.Reachability
import MarketingAgents.Library.TopologicalOrder

namespace MarketingAgents

open Library

/-! # Dependency graphs

A graph is built of steps that name the steps they depend on. The steps come in
one order that follows the dependencies, and every one has to lie on a path to a
terminal result.
-/

/-- What the constructor of a step has checked of its numbers and keys. -/
structure CheckedStep (key : String) (sourceOrder : Nat) (dependencyKeys : List String) : Prop where
  positive : 1 ≤ sourceOrder
  distinct : dependencyKeys.Nodup
  separate : key ∉ dependencyKeys

/-- One workflow-local step and its explicit structural dependencies. -/
structure TopologyStep where
  key : String
  sourceOrder : Nat
  dependencyKeys : List String
  terminalResult : Bool
  checked : CheckedStep key sourceOrder dependencyKeys

/-- A refusal under another code. -/
def recoded {α : Type} (code : String) : Except Rejection α → Except Rejection α
  | .ok value => .ok value
  | .error reason => reject code reason.message

namespace TopologyStep

/-- The dependency keys are stable, distinct and other than the key. -/
def checkDependencies (key : String) : List String → List String → Except Rejection Unit
  | _, [] => .ok ()
  | seen, dependency :: rest => do
      recoded "invalid_dependency_key" (requireId dependency "topology dependency key")
      require (dependency ≠ key) "self_dependency" "a topology step cannot depend on itself"
      require (dependency ∉ seen) "duplicate_dependency"
        "a topology dependency may be declared only once"
      checkDependencies key (dependency :: seen) rest

theorem checkDependencies_ok {key : String} {seen dependencyKeys : List String}
    (accepted : checkDependencies key seen dependencyKeys = .ok ()) :
    dependencyKeys.Nodup ∧ key ∉ dependencyKeys ∧
      ∀ dependency ∈ dependencyKeys, dependency ∉ seen := by
  induction dependencyKeys generalizing seen with
  | nil => simp
  | cons first rest ih =>
      simp only [checkDependencies, bind_ok, require_ok] at accepted
      obtain ⟨_, _, _, other, _, fresh, accepted⟩ := accepted
      obtain ⟨distinct, separate, apart⟩ := ih accepted
      refine ⟨List.nodup_cons.mpr ⟨fun member => apart first member List.mem_cons_self, distinct⟩,
        ?_, ?_⟩
      · exact List.not_mem_cons_of_ne_of_not_mem other.symm separate
      · refine List.forall_mem_cons.mpr ⟨fresh, fun dependency member known => ?_⟩
        exact apart dependency member (List.mem_cons_of_mem _ known)

theorem checked_of_accepted {key : String} {sourceOrder : Nat} {dependencyKeys : List String}
    (positive : 1 ≤ sourceOrder) (accepted : checkDependencies key [] dependencyKeys = .ok ()) :
    CheckedStep key sourceOrder (dependencyKeys.insertionSort (· ≤ ·)) := by
  obtain ⟨distinct, separate, _⟩ := checkDependencies_ok accepted
  have perm := List.perm_insertionSort (· ≤ ·) dependencyKeys
  exact ⟨positive, perm.nodup_iff.mpr distinct, fun member => separate (perm.mem_iff.mp member)⟩

/-- The validating constructor. -/
def make (key : String) (sourceOrder : Nat) (dependencyKeys : List String) (terminalResult : Bool) :
    Except Rejection TopologyStep :=
  match recoded "invalid_step_key" (requireId key "topology step key") with
  | .error reason => .error reason
  | .ok () =>
      if positive : 1 ≤ sourceOrder then
        match accepted : checkDependencies key [] dependencyKeys with
        | .error reason => .error reason
        | .ok () => .ok {
            key, sourceOrder, terminalResult
            dependencyKeys := dependencyKeys.insertionSort (· ≤ ·)
            checked := checked_of_accepted positive accepted }
      else reject "invalid_source_order" "topology source order must be a positive integer"

def rank (step : TopologyStep) : ℕ ×ₗ String := toLex (step.sourceOrder, step.key)

end TopologyStep

section

variable (steps : List TopologyStep)

def stepKeys : List String := steps.map (·.key)

def stepByKey (key : String) : Option TopologyStep := steps.find? fun step => step.key = key

def dependencyKeys (key : String) : List String :=
  ((stepByKey steps key).map (·.dependencyKeys)).getD []

/-- Steps are compared by their place in the source, then by their key. -/
def keyRank (key : String) : ℕ ×ₗ String :=
  toLex (((stepByKey steps key).map (·.sourceOrder)).getD 0, key)

/-- The keys of the steps that depend on one. -/
def outgoing (key : String) : List String :=
  (steps.filter fun step => key ∈ step.dependencyKeys).map (·.key)

def terminalResults : List String := (steps.filter (·.terminalResult)).map (·.key)

def dependencyEdges : List (String × List String) :=
  steps.map fun step => (step.key, step.dependencyKeys)

def normalizedSteps : List TopologyStep :=
  steps.insertionSort fun left right => left.rank ≤ right.rank

def semanticPayload {φ : Type} : PythonValue φ :=
  .record [("version", .int 1), ("steps", .sequence (steps.map fun step => .record [
    ("key", .str step.key), ("source_order", .int step.sourceOrder),
    ("dependency_keys", .strings step.dependencyKeys),
      ("terminal_result", .bool step.terminalResult)]))]

end

def GRAPH_HASH_DOMAIN : ByteArray := "marketing-agents:dependency-graph:v1\x00".toByteArray

/-- A validated DAG whose identity contains topology but no routing decisions. -/
structure DependencyGraph where
  steps : List TopologyStep
  topologicalOrder : List String
  roots : List String
  terminalResults : List String
  semanticHash : String

namespace DependencyGraph

variable {φ : Type}

/-- The checks of `build` behind the order of the steps. -/
def buildNormalized (support : HashSupport φ) (steps : List TopologyStep) :
    Except Rejection DependencyGraph := do
  require (stepKeys steps).Nodup "duplicate_step_key" "topology step keys must be unique"
  require (∀ step ∈ steps, ∀ dependency ∈ step.dependencyKeys, dependency ∈ stepKeys steps)
    "unknown_dependency" "a dependency refers to an unknown topology step"
  let orderedKeys := Topological.order (keyRank steps) (outgoing steps) (dependencyKeys steps)
    (stepKeys steps)
  require (orderedKeys.length = steps.length) "graph_cycle" "dependency graph contains a cycle"
  let terminals := MarketingAgents.terminalResults steps
  require (terminals ≠ []) "terminal_result_missing"
    "dependency graph needs an explicit terminal result"
  require (∀ key ∈ terminals, outgoing steps key = []) "terminal_has_dependents"
    "a terminal result must be a graph sink"
  let reachesTerminal ← requireSome
    (Graph.spread (dependencyEdges steps) terminals.reverse terminals) "KeyError" ""
  require ((∀ key ∈ stepKeys steps, key ∈ reachesTerminal) ∧
    ∀ key ∈ reachesTerminal, key ∈ stepKeys steps)
    "no_terminal_result_path" "every topology step must lie on a path to a terminal result"
  let bytes ← canonicalJsonBytes support.text support.numbers (semanticPayload steps)
  return {
    steps
    topologicalOrder := orderedKeys
    roots := stepKeys (steps.filter fun step => step.dependencyKeys = [])
    terminalResults := terminals
    semanticHash := support.sha256 (GRAPH_HASH_DOMAIN ++ bytes) }

def build (support : HashSupport φ) (steps : List TopologyStep)
    (workflowMaxSteps globalMaxSteps : Int) : Except Rejection DependencyGraph := do
  require (1 ≤ workflowMaxSteps ∧ 1 ≤ globalMaxSteps) "invalid_graph_limit"
    "graph step limits must be positive integers"
  require (normalizedSteps steps ≠ []) "graph_empty" "a dependency graph must contain a step"
  require (((normalizedSteps steps).length : Int) ≤ min workflowMaxSteps globalMaxSteps)
    "graph_limit_exceeded" "dependency graph exceeds a configured step limit"
  buildNormalized support (normalizedSteps steps)

/-- One structural step without resolving an agent or capability. -/
def step (graph : DependencyGraph) (key : String) : Except Rejection TopologyStep :=
  requireSome (stepByKey graph.steps key) "unknown_step" "topology step does not exist"

/-- Every transitive predecessor, excluding the requested step. -/
def ancestors (graph : DependencyGraph) (key : String) : Except Rejection (List String) := do
  let target ← graph.step key
  requireSome (Graph.gather (dependencyEdges graph.steps) target.dependencyKeys.reverse [])
    "unknown_step" "topology step does not exist"

end DependencyGraph

/-- A step declares a dependency. -/
def DependsOn (steps : List TopologyStep) (key dependency : String) : Prop :=
  ∃ step ∈ steps, step.key = key ∧ dependency ∈ step.dependencyKeys

section

variable {steps : List TopologyStep} {key dependency : String} {step : TopologyStep}

theorem keyRank_injective : Function.Injective (keyRank steps) :=
  fun _ _ same => congrArg (·.2) (toLex_inj.mp same)

theorem stepByKey_iff (distinct : (stepKeys steps).Nodup) :
    stepByKey steps key = some step ↔ step ∈ steps ∧ step.key = key := by
  constructor
  · intro found
    exact ⟨List.mem_of_find?_eq_some found, by simpa using List.find?_some found⟩
  · rintro ⟨member, rfl⟩
    exact find?_key distinct member

theorem mem_dependencyKeys (distinct : (stepKeys steps).Nodup) :
    dependency ∈ dependencyKeys steps key ↔ DependsOn steps key dependency := by
  constructor
  · intro member
    cases found : stepByKey steps key with
    | none => simp [dependencyKeys, found] at member
    | some step =>
        obtain ⟨listed, same⟩ := (stepByKey_iff distinct).mp found
        exact ⟨step, listed, same, by simpa [dependencyKeys, found] using member⟩
  · rintro ⟨step, listed, same, member⟩
    rw [dependencyKeys, (stepByKey_iff distinct).mpr ⟨listed, same⟩]
    exact member

theorem targets_dependencyEdges : Graph.targets (dependencyEdges steps) key =
    (stepByKey steps key).map (·.dependencyKeys) := by
  rw [Graph.targets, dependencyEdges, List.find?_map, Option.map_map]
  rfl

theorem edge_iff (distinct : (stepKeys steps).Nodup) :
    Graph.Edge (dependencyEdges steps) key dependency ↔ DependsOn steps key dependency := by
  rw [← mem_dependencyKeys distinct, Graph.Edge, targets_dependencyEdges, dependencyKeys]
  cases stepByKey steps key <;> simp

theorem mem_outgoing (distinct : (stepKeys steps).Nodup) {dependent : String} :
    dependent ∈ outgoing steps key ↔ dependent ∈ stepKeys steps ∧
      key ∈ dependencyKeys steps dependent := by
  rw [mem_dependencyKeys distinct]
  constructor
  · intro member
    obtain ⟨step, listed, rfl⟩ := List.mem_map.mp member
    obtain ⟨inside, needed⟩ := List.mem_filter.mp listed
    exact ⟨List.mem_map_of_mem inside, step, inside, rfl, by simpa using needed⟩
  · rintro ⟨_, step, inside, rfl, needed⟩
    exact List.mem_map_of_mem (List.mem_filter.mpr ⟨inside, by simpa using needed⟩)

/-- Every dependency is the key of a step. -/
def KnownDependencies (steps : List TopologyStep) : Prop :=
  ∀ step ∈ steps, ∀ dependency ∈ step.dependencyKeys, dependency ∈ stepKeys steps

theorem wired (distinct : (stepKeys steps).Nodup) (known : KnownDependencies steps) :
    Topological.Wired (stepKeys steps) (dependencyKeys steps) (outgoing steps) where
  distinct
  dependencies key member := by
    obtain ⟨step, listed, rfl⟩ := List.mem_map.mp member
    rw [dependencyKeys, (stepByKey_iff distinct).mpr ⟨listed, rfl⟩]
    exact ⟨step.checked.distinct, known step listed⟩
  dependents key := ⟨distinct.sublist (List.filter_sublist.map _),
    fun dependent => mem_outgoing distinct⟩

theorem cycle_iff (distinct : (stepKeys steps).Nodup) :
    Relation.TransGen (Topological.Precedes (dependencyKeys steps)) key key ↔
      Relation.TransGen (DependsOn steps) key key := by
  have swapped : Topological.Precedes (dependencyKeys steps) = Function.swap (DependsOn steps) := by
    funext dependency node
    exact propext (mem_dependencyKeys distinct)
  rw [swapped, Relation.transGen_swap]

end

section

variable {φ : Type} {text : TextSupport} {numbers : NumberSupport φ}

/-- A source order has no more digits than the language writes. -/
def TopologyStep.Printable (numbers : NumberSupport φ) (step : TopologyStep) : Prop :=
  (Nat.toDigits 10 step.sourceOrder).length ≤ numbers.maxStrDigits

theorem plainNames_stepFields :
    PlainNames ["key", "source_order", "dependency_keys", "terminal_result"] := by decide

theorem plainNames_payload : PlainNames ["version", "steps"] := by decide

theorem writes_semanticPayload (keeps : text.KeepsAscii) {steps : List TopologyStep}
    (one : 1 ≤ numbers.maxStrDigits) (printable : ∀ step ∈ steps, step.Printable numbers) :
      (semanticPayload steps).Written text numbers := by
  have number : ∀ value : Nat, (Nat.toDigits 10 value).length ≤ numbers.maxStrDigits →
      (PythonValue.int value : PythonValue φ).Written text numbers :=
        fun value short => (writes_nat short).written
  have each : ∀ item ∈ steps.map fun step : TopologyStep => (.record [("key", .str step.key),
      ("source_order", .int step.sourceOrder), ("dependency_keys", .strings step.dependencyKeys),
      ("terminal_result", .bool step.terminalResult)] : PythonValue φ),
          item.Written text numbers := by
    intro item member
    obtain ⟨step, listed, rfl⟩ := List.mem_map.mp member
    refine written_record keeps plainNames_stepFields ?_
    simp only [List.forall_mem_cons, List.not_mem_nil, false_implies, implies_true, and_true]
    refine ⟨(writes_str _).written, number _ (printable step listed), written_sequence ?_,
      (writes_bool _).written⟩
    intro dependency member
    obtain ⟨key, _, rfl⟩ := List.mem_map.mp member
    exact (writes_str _).written
  refine written_record keeps plainNames_payload ?_
  simp only [List.forall_mem_cons, List.not_mem_nil, false_implies, implies_true, and_true]
  exact ⟨number 1 one, written_sequence each⟩

theorem semanticPayload_written (keeps : text.KeepsAscii) {steps : List TopologyStep}
    (nonempty : steps ≠ []) :
    (semanticPayload steps).Written text numbers ↔ ∀ step ∈ steps, step.Printable numbers := by
  constructor
  · intro written step member
    have listed := written.field (List.mem_cons_of_mem _ List.mem_cons_self)
    have record := listed.item (List.mem_map_of_mem member)
    exact (record.field (List.mem_cons_of_mem _ List.mem_cons_self)).digits
  · intro printable
    obtain ⟨first, member⟩ := List.exists_mem_of_ne_nil steps nonempty
    have short := printable first member
    have some_digit : 0 < (Nat.toDigits 10 first.sourceOrder).length := Nat.length_toDigits_pos
    exact writes_semanticPayload keeps (Nat.le_trans some_digit short) printable

end

/-- Every step lies on a path to a terminal result. -/
def ReachesTerminal (steps : List TopologyStep) (key : String) : Prop :=
  ∃ terminal ∈ steps, terminal.terminalResult ∧
    Relation.ReflTransGen (DependsOn steps) terminal.key key

/-- A list of steps that can be planned within two limits. -/
structure Buildable {φ : Type} (numbers : NumberSupport φ) (steps : List TopologyStep)
    (workflowMaxSteps globalMaxSteps : Int) : Prop where
  nonempty : steps ≠ []
  withinWorkflow : (steps.length : Int) ≤ workflowMaxSteps
  withinGlobal : (steps.length : Int) ≤ globalMaxSteps
  distinct : (stepKeys steps).Nodup
  known : KnownDependencies steps
  acyclic : ∀ key ∈ stepKeys steps, ¬ Relation.TransGen (DependsOn steps) key key
  terminal : ∃ step ∈ steps, step.terminalResult
  sinks : ∀ terminal ∈ steps, terminal.terminalResult →
    ∀ step ∈ steps, terminal.key ∉ step.dependencyKeys
  reaches : ∀ key ∈ stepKeys steps, ReachesTerminal steps key
  printable : ∀ step ∈ steps, step.Printable numbers

section

variable {φ : Type} {support : HashSupport φ} {steps other : List TopologyStep}

theorem mem_terminalResults {key : String} : key ∈ terminalResults steps ↔
    ∃ terminal ∈ steps, terminal.terminalResult ∧ terminal.key = key := by
  simp [terminalResults, and_assoc]

theorem outgoing_eq_nil : outgoing steps key = [] ↔ ∀ step ∈ steps, key ∉ step.dependencyKeys := by
  simp [outgoing, List.filter_eq_nil_iff]

/-- The spread of the terminals succeeds and holds what reaches one. -/
theorem spread_terminals (distinct : (stepKeys steps).Nodup) (known : KnownDependencies steps) :
    ∃ reached, Graph.spread (dependencyEdges steps) (terminalResults steps).reverse
      (terminalResults steps) = some reached ∧
      (∀ key, key ∈ reached ↔ ReachesTerminal steps key) ∧
        ∀ key ∈ reached, key ∈ stepKeys steps := by
  have inside : ∀ key ∈ (terminalResults steps).reverse, key ∈ stepKeys steps := by
    intro key member
    obtain ⟨terminal, listed, _, rfl⟩ := mem_terminalResults.mp (List.mem_reverse.mp member)
    exact List.mem_map_of_mem listed
  have listed : ∀ key, key ∈ stepKeys steps →
      (Graph.targets (dependencyEdges steps) key).isSome := by
    intro key member
    obtain ⟨step, listed, rfl⟩ := List.mem_map.mp member
    rw [targets_dependencyEdges, (stepByKey_iff distinct).mpr ⟨listed, rfl⟩]
    rfl
  have step : ∀ key dependency, key ∈ stepKeys steps →
    Graph.Edge (dependencyEdges steps) key dependency →
      dependency ∈ stepKeys steps := by
    intro key dependency _ edge
    obtain ⟨step, listed, _, needed⟩ := (edge_iff distinct).mp edge
    exact known step listed dependency needed
  have succeeds : ∃ reached,
      Graph.spread (dependencyEdges steps) (terminalResults steps).reverse (terminalResults steps) =
        some reached :=
    Graph.spread_succeeds inside listed step
  obtain ⟨reached, spreads⟩ := succeeds
  refine ⟨reached, spreads, fun key => ?_, ?_⟩
  · rw [Graph.mem_spread spreads (by simp)]
    have edges : Graph.Edge (dependencyEdges steps) = DependsOn steps := by
      funext node dependency
      exact propext (edge_iff distinct)
    simp only [Graph.Behind, edges, ReachesTerminal, mem_terminalResults]
    constructor
    · rintro ⟨_, ⟨terminal, listed, result, rfl⟩, path⟩
      exact ⟨terminal, listed, result, path⟩
    · rintro ⟨terminal, listed, result, path⟩
      exact ⟨terminal.key, ⟨terminal, listed, result, rfl⟩, path⟩
  · exact Graph.spread_sound spreads (fun key member =>
      inside key (List.mem_reverse.mpr member)) inside
      fun key dependency known edge => step key dependency known edge

theorem buildNormalized_ok (keeps : support.text.KeepsAscii) (nonempty : steps ≠ []) :
    (∃ graph, DependencyGraph.buildNormalized support steps = .ok graph) ↔
      (stepKeys steps).Nodup ∧ KnownDependencies steps ∧
        (∀ key ∈ stepKeys steps, ¬ Relation.TransGen (DependsOn steps) key key) ∧
        (∃ step ∈ steps, step.terminalResult) ∧
        (∀ terminal ∈ steps, terminal.terminalResult →
          ∀ step ∈ steps, terminal.key ∉ step.dependencyKeys) ∧
        (∀ key ∈ stepKeys steps, ReachesTerminal steps key) ∧
          ∀ step ∈ steps, step.Printable support.numbers := by
  have keys : (stepKeys steps).length = steps.length := List.length_map _
  have some_terminal : terminalResults steps ≠ [] ↔ ∃ step ∈ steps, step.terminalResult := by
    rw [ne_eq, List.eq_nil_iff_forall_not_mem, not_forall]
    simp [mem_terminalResults]
  have sinks : (∀ key ∈ terminalResults steps, outgoing steps key = []) ↔
      ∀ terminal ∈ steps, terminal.terminalResult →
          ∀ step ∈ steps, terminal.key ∉ step.dependencyKeys := by
    constructor
    · exact fun all terminal listed result =>
        outgoing_eq_nil.mp (all terminal.key
          (mem_terminalResults.mpr ⟨terminal, listed, result, rfl⟩))
    · intro all key member
      obtain ⟨terminal, listed, result, rfl⟩ := mem_terminalResults.mp member
      exact outgoing_eq_nil.mpr (all terminal listed result)
  simp only [DependencyGraph.buildNormalized, bind_ok, require_ok, requireSome_ok, pure_ok]
  constructor
  · rintro ⟨graph, _, distinct, _, known, _, complete, _, terminal, _, sink, reached, spreads, _,
      paths, bytes, written, _⟩
    obtain ⟨found, again, reach, _⟩ := spread_terminals distinct known
    cases spreads.symm.trans again
    refine ⟨distinct, known, ?_, some_terminal.mp terminal, sinks.mp sink,
      fun key member => (reach key).mp (paths.1 key member),
        (semanticPayload_written keeps nonempty).mp ⟨bytes, written⟩⟩
    intro key member cycle
    rw [← keys] at complete
    exact (Topological.order_complete _ (wired distinct known)).mp complete key member
      ((cycle_iff distinct).mpr cycle)
  · rintro ⟨distinct, known, acyclic, terminal, sink, paths, printable⟩
    obtain ⟨reached, spreads, reach, inside⟩ := spread_terminals distinct known
    obtain ⟨bytes, written⟩ := (semanticPayload_written keeps nonempty).mpr printable
    have complete := (Topological.order_complete (keyRank steps) (wired distinct known)).mpr
        fun key member cycle =>
      acyclic key member ((cycle_iff distinct).mp cycle)
    rw [keys] at complete
    exact ⟨_, (), distinct, (), known, (), complete, (), some_terminal.mpr terminal, (),
      sinks.mpr sink, reached, spreads,
      (), ⟨fun key member => (reach key).mpr (paths key member), inside⟩, bytes, written, rfl⟩

theorem buildNormalized_acyclic
    (built : DependencyGraph.buildNormalized support steps = .ok graph) :
    graph.steps = steps ∧ (stepKeys steps).Nodup ∧
      ∀ key ∈ stepKeys steps, ¬ Relation.TransGen (DependsOn steps) key key := by
  simp only [DependencyGraph.buildNormalized, bind_ok, require_ok, requireSome_ok, pure_ok] at built
  obtain ⟨_, distinct, _, known, _, complete, _, _, _, _, _, _, _, _, _, _, rfl⟩ := built
  refine ⟨rfl, distinct, fun key member cycle => ?_⟩
  rw [show steps.length = (stepKeys steps).length from (List.length_map _).symm] at complete
  exact (Topological.order_complete _ (wired distinct known)).mp complete key member
    ((cycle_iff distinct).mpr cycle)

theorem perm_normalizedSteps : (normalizedSteps steps).Perm steps := List.perm_insertionSort _ _

theorem dependsOn_perm (perm : steps.Perm other) : DependsOn steps = DependsOn other := by
  funext key dependency
  simp only [DependsOn, perm.mem_iff]

theorem stepKeys_perm (perm : steps.Perm other) :
    (stepKeys steps).Perm (stepKeys other) := perm.map _

theorem keyRank_perm (perm : steps.Perm other) (distinct : (stepKeys steps).Nodup) :
    keyRank steps = keyRank other := by
  funext key
  have same : stepByKey steps key = stepByKey other key := by
    apply Option.ext
    intro step
    rw [stepByKey_iff distinct, stepByKey_iff ((stepKeys_perm perm).nodup_iff.mp distinct),
      perm.mem_iff]
  rw [keyRank, keyRank, same]

theorem normalizedSteps_perm (perm : steps.Perm other) (distinct : (stepKeys steps).Nodup) :
    normalizedSteps steps = normalizedSteps other := by
  refine insertionSort_eq_of_perm (fun first member second listed before after => ?_) perm
  have same : first.rank = second.rank := le_antisymm before after
  have keys : first.key = second.key := congrArg (·.2) (toLex_inj.mp same)
  exact List.inj_on_of_nodup_map distinct member listed keys

theorem Buildable.perm {workflowMaxSteps globalMaxSteps : Int} (perm : steps.Perm other)
    (buildable : Buildable numbers steps workflowMaxSteps globalMaxSteps) :
    Buildable numbers other workflowMaxSteps globalMaxSteps := by
  have edges := dependsOn_perm perm
  have keys : ∀ key, key ∈ stepKeys other ↔ key ∈ stepKeys steps :=
    fun key => (stepKeys_perm perm).mem_iff.symm
  constructor
  · intro empty
    rw [empty] at perm
    exact buildable.nonempty perm.eq_nil
  · rw [← perm.length_eq]
    exact buildable.withinWorkflow
  · rw [← perm.length_eq]
    exact buildable.withinGlobal
  · exact (stepKeys_perm perm).nodup_iff.mp buildable.distinct
  · intro step member dependency needed
    exact (keys dependency).mpr (buildable.known step (perm.mem_iff.mpr member) dependency needed)
  · intro key member
    rw [← edges]
    exact buildable.acyclic key ((keys key).mp member)
  · obtain ⟨step, member, result⟩ := buildable.terminal
    exact ⟨step, perm.mem_iff.mp member, result⟩
  · intro terminal member result step listed
    exact buildable.sinks terminal (perm.mem_iff.mpr member) result step (perm.mem_iff.mpr listed)
  · intro key member
    obtain ⟨terminal, listed, result, path⟩ := buildable.reaches key ((keys key).mp member)
    rw [edges] at path
    exact ⟨terminal, perm.mem_iff.mp listed, result, path⟩
  · exact fun step member => buildable.printable step (perm.mem_iff.mpr member)

theorem build_normalized (workflowMaxSteps globalMaxSteps : Int) (graph : DependencyGraph) :
    DependencyGraph.build support steps workflowMaxSteps globalMaxSteps = .ok graph ↔
      (1 ≤ workflowMaxSteps ∧ 1 ≤ globalMaxSteps) ∧ normalizedSteps steps ≠ [] ∧
        ((normalizedSteps steps).length : Int) ≤ min workflowMaxSteps globalMaxSteps ∧
          DependencyGraph.buildNormalized support (normalizedSteps steps) = .ok graph := by
  simp only [DependencyGraph.build, bind_ok, require_ok]
  constructor
  · rintro ⟨_, limits, _, nonempty, _, bounded, built⟩
    exact ⟨limits, nonempty, bounded, built⟩
  · rintro ⟨limits, nonempty, bounded, built⟩
    exact ⟨(), limits, (), nonempty, (), bounded, built⟩

theorem build_ok (keeps : support.text.KeepsAscii) {workflowMaxSteps globalMaxSteps : Int} :
    (∃ graph, DependencyGraph.build support steps workflowMaxSteps globalMaxSteps = .ok graph) ↔
      Buildable support.numbers steps workflowMaxSteps globalMaxSteps := by
  simp only [build_normalized]
  constructor
  · rintro ⟨graph, _, nonempty, bounded, built⟩
    obtain ⟨withinWorkflow, withinGlobal⟩ := le_min_iff.mp bounded
    obtain ⟨distinct, known, acyclic, terminal, sinks, reaches, printable⟩ :=
      (buildNormalized_ok keeps nonempty).mp ⟨graph, built⟩
    exact Buildable.perm perm_normalizedSteps ⟨nonempty, withinWorkflow, withinGlobal, distinct,
      known, acyclic, terminal, sinks, reaches, printable⟩
  · intro buildable
    have normal := buildable.perm perm_normalizedSteps.symm
    obtain ⟨graph, built⟩ :=
      (buildNormalized_ok keeps normal.nonempty).mpr ⟨normal.distinct, normal.known,
      normal.acyclic, normal.terminal, normal.sinks, normal.reaches, normal.printable⟩
    have populated : (1 : Int) ≤ (normalizedSteps steps).length := by
      exact_mod_cast List.length_pos_of_ne_nil normal.nonempty
    exact ⟨graph, ⟨populated.trans normal.withinWorkflow, populated.trans normal.withinGlobal⟩,
      normal.nonempty, le_min normal.withinWorkflow normal.withinGlobal, built⟩

/-- The order follows the dependencies of the steps. -/
def FollowsDependencies (steps : List TopologyStep) (order : List String) : Prop :=
  ∀ before key after, order = before ++ key :: after →
    ∀ dependency, DependsOn steps key dependency → dependency ∈ before

theorem followsDependencies_iff (distinct : (stepKeys steps).Nodup) :
    FollowsDependencies steps order ↔ Topological.Follows (dependencyKeys steps) [] order := by
  rw [Topological.follows_iff]
  constructor
  · intro follows before key after split dependency needed
    exact follows before key after split dependency ((mem_dependencyKeys distinct).mp needed)
  · intro follows before key after split dependency needed
    simpa using follows before key after split dependency ((mem_dependencyKeys distinct).mpr needed)

theorem buildNormalized_order (built : DependencyGraph.buildNormalized support steps = .ok graph) :
    (stepKeys steps).Nodup ∧ graph.topologicalOrder.Perm (stepKeys steps) ∧
      FollowsDependencies steps graph.topologicalOrder ∧
      ∀ order : List String, order.Perm (stepKeys steps) → FollowsDependencies steps order →
        graph.topologicalOrder = order ∨
          List.Lex (· < ·) (graph.topologicalOrder.map (keyRank steps))
            (order.map (keyRank steps)) := by
  simp only [DependencyGraph.buildNormalized, bind_ok, require_ok, requireSome_ok, pure_ok] at built
  obtain ⟨_, distinct, _, known, _, complete, _, _, _, _, _, _, _, _, _, _, rfl⟩ := built
  rw [show steps.length = (stepKeys steps).length from (List.length_map _).symm] at complete
  obtain ⟨perm, follows, least⟩ :=
    Topological.order_least (wired distinct known) keyRank_injective complete
  refine ⟨distinct, perm, (followsDependencies_iff distinct).mpr follows,
    fun order same ordered => ?_⟩
  exact least order same ((followsDependencies_iff distinct).mp ordered)

theorem build_perm (perm : other.Perm steps) (workflowMaxSteps globalMaxSteps : Int) :
    DependencyGraph.build support other workflowMaxSteps globalMaxSteps =
      DependencyGraph.build support steps workflowMaxSteps globalMaxSteps := by
  by_cases distinct : (stepKeys other).Nodup
  · rw [DependencyGraph.build, DependencyGraph.build, normalizedSteps_perm perm distinct]
  · -- Steps with one key twice are refused whatever their order.
    have clash : ∀ {steps : List TopologyStep}, ¬ (stepKeys steps).Nodup →
        DependencyGraph.buildNormalized support steps =
          reject "duplicate_step_key" "topology step keys must be unique" := by
      intro steps twice
      rw [DependencyGraph.buildNormalized, require, if_neg twice]
      rfl
    have perms := perm_normalizedSteps.trans (perm.trans perm_normalizedSteps.symm)
    have twice : ¬ (stepKeys (normalizedSteps other)).Nodup :=
      fun single => distinct ((stepKeys_perm perm_normalizedSteps).nodup_iff.mp single)
    have again : ¬ (stepKeys (normalizedSteps steps)).Nodup :=
      fun single => twice ((stepKeys_perm perms).nodup_iff.mpr single)
    have empty : normalizedSteps other ≠ [] ↔ normalizedSteps steps ≠ [] := by
      rw [← List.length_pos_iff, ← List.length_pos_iff, perms.length_eq]
    rw [DependencyGraph.build, DependencyGraph.build, clash twice, clash again, perms.length_eq]
    simp only [empty]

/-- A graph is built exactly of the lists that can be planned; its order is the least that follows
the dependencies and does not depend on the order of the input. -/
theorem build_exact (keeps : support.text.KeepsAscii) (steps : List TopologyStep)
    (workflowMaxSteps globalMaxSteps : Int) :
    ((∃ graph, DependencyGraph.build support steps workflowMaxSteps globalMaxSteps = .ok graph) ↔
        Buildable support.numbers steps workflowMaxSteps globalMaxSteps) ∧
      (∀ graph, DependencyGraph.build support steps workflowMaxSteps globalMaxSteps = .ok graph →
        graph.topologicalOrder.Perm (stepKeys steps) ∧
        FollowsDependencies steps graph.topologicalOrder ∧
          ∀ order : List String, order.Perm (stepKeys steps) → FollowsDependencies steps order →
            graph.topologicalOrder = order ∨
              List.Lex (· < ·) (graph.topologicalOrder.map (keyRank steps))
                (order.map (keyRank steps))) ∧
      ∀ other : List TopologyStep, other.Perm steps →
        DependencyGraph.build support other workflowMaxSteps globalMaxSteps =
          DependencyGraph.build support steps workflowMaxSteps globalMaxSteps := by
  refine ⟨build_ok keeps, fun graph built => ?_, fun other perm => build_perm perm _ _⟩
  obtain ⟨_, _, _, normal⟩ := (build_normalized _ _ graph).mp built
  obtain ⟨distinct, perm, follows, least⟩ := buildNormalized_order normal
  have sorted : (normalizedSteps steps).Perm steps := perm_normalizedSteps
  have keys := stepKeys_perm sorted
  have edges := dependsOn_perm sorted
  have ranks := keyRank_perm sorted distinct
  simp only [FollowsDependencies, edges, ranks] at follows least
  exact ⟨perm.trans keys, follows, fun order same ordered =>
    least order (same.trans keys.symm) ordered⟩

end

namespace DependencyGraph

variable {φ : Type} {support : HashSupport φ} {graph : DependencyGraph} {key ancestor : String}

/-- One key lies behind the dependencies of the other. -/
def StrictAncestor (graph : DependencyGraph) (key ancestor : String) : Prop :=
  Relation.TransGen (Graph.Edge (dependencyEdges graph.steps)) key ancestor

theorem mem_ancestors (searched : graph.ancestors key = .ok found) :
    ancestor ∈ found ↔ graph.StrictAncestor key ancestor := by
  simp only [ancestors, DependencyGraph.step, bind_ok, requireSome_ok] at searched
  obtain ⟨target, named, gathered⟩ := searched
  have edges : ∀ dependency, Graph.Edge (dependencyEdges graph.steps) key dependency ↔
      dependency ∈ target.dependencyKeys := by
    intro dependency
    rw [Graph.Edge, targets_dependencyEdges, named]
    simp
  rw [Graph.mem_gather gathered, StrictAncestor, Relation.TransGen.head'_iff]
  simp only [Graph.Behind, List.mem_reverse, edges]

theorem StrictAncestor.ne {steps : List TopologyStep} {workflowMaxSteps globalMaxSteps : Int}
    (above : graph.StrictAncestor key ancestor)
    (built : build support steps workflowMaxSteps globalMaxSteps = .ok graph) : ancestor ≠ key := by
  rintro rfl
  obtain ⟨_, _, _, normal⟩ := (build_normalized _ _ graph).mp built
  obtain ⟨same, distinct, acyclic⟩ := buildNormalized_acyclic normal
  have edges : Graph.Edge (dependencyEdges (normalizedSteps steps)) =
      DependsOn (normalizedSteps steps) := by
    funext node dependency
    exact propext (edge_iff distinct)
  rw [StrictAncestor, same, edges] at above
  obtain ⟨_, ⟨step, listed, named, _⟩, _⟩ := Relation.TransGen.head'_iff.mp above
  exact acyclic ancestor (named ▸ List.mem_map_of_mem listed) above

end DependencyGraph

namespace ReviewedDraft

def support : HashSupport Bool where
  text := acuteSupport
  numbers := halfSupport
  sha256 _ := "digest"

theorem draft_checked : CheckedStep "draft" 2 [] := ⟨by decide, by decide, by decide⟩

theorem review_checked : CheckedStep "review" 1 ["draft"] := ⟨by decide, by decide, by decide⟩

def draft : TopologyStep := ⟨"draft", 2, [], false, draft_checked⟩

def review : TopologyStep := ⟨"review", 1, ["draft"], true, review_checked⟩

theorem keeps : support.text.KeepsAscii := acuteSupport_keepsAscii

theorem draft_printable : draft.Printable halfSupport := by
  unfold TopologyStep.Printable
  decide

theorem review_printable : review.Printable halfSupport := by
  unfold TopologyStep.Printable
  decide

theorem dependsOn_iff :
    DependsOn [review, draft] key dependency ↔ key = "review" ∧ dependency = "draft" := by
  simp [DependsOn, review, draft, eq_comm]

theorem buildable : Buildable halfSupport [review, draft] 2 2 where
  nonempty := by simp
  withinWorkflow := by decide
  withinGlobal := by decide
  distinct := by decide
  known := by simp [KnownDependencies, stepKeys, review, draft]
  acyclic key _ cycle := by
    have start : ∀ {first last}, Relation.TransGen (DependsOn [review, draft]) first last →
        first = "review" ∧ last = "draft" := by
      intro first last path
      induction path with
      | single edge => exact dependsOn_iff.mp edge
      | tail _ edge ih => exact ⟨ih.1, (dependsOn_iff.mp edge).2⟩
    obtain ⟨first, last⟩ := start cycle
    exact absurd (first.symm.trans last) (by decide)
  terminal := ⟨review, by simp, rfl⟩
  sinks := by decide
  reaches key member := by
    refine ⟨review, by simp, rfl, ?_⟩
    rcases List.mem_cons.mp member with rfl | later
    · exact .refl
    · rw [List.mem_singleton.mp later]
      exact .single (dependsOn_iff.mpr ⟨rfl, rfl⟩)
  printable := List.forall_mem_cons.mpr ⟨review_printable,
    List.forall_mem_singleton.mpr draft_printable⟩

/-- The draft comes first although its place in the source is the later one. -/
theorem build_exact_review :
    ∃ graph, DependencyGraph.build support [review, draft] 2 2 = .ok graph ∧
    graph.topologicalOrder.Perm ["review", "draft"] ∧
    FollowsDependencies [review, draft] graph.topologicalOrder ∧
    DependencyGraph.build support [draft, review] 2 2 = .ok graph := by
  obtain ⟨built, order, same⟩ := build_exact keeps [review, draft] 2 2
  obtain ⟨graph, succeeded⟩ := built.mpr buildable
  obtain ⟨perm, follows, _⟩ := order graph succeeded
  exact ⟨graph, succeeded, perm, follows,
    (same [draft, review] (List.Perm.swap ..)).trans succeeded⟩

theorem distant_checked : CheckedStep "draft" (10 ^ 4300) [] :=
  ⟨Nat.one_le_pow _ _ (by decide), by decide, by decide⟩

def distant : TopologyStep := ⟨"draft", 10 ^ 4300, [], true, distant_checked⟩

/-- One terminal step meets every condition on the graph, but its hash is not computed. -/
theorem distant_unbuilt : [distant] ≠ [] ∧ (stepKeys [distant]).Nodup ∧
    KnownDependencies [distant] ∧
    (∀ key, ¬ Relation.TransGen (DependsOn [distant]) key key) ∧
    (∃ step ∈ [distant], step.terminalResult) ∧
    (∀ terminal ∈ [distant], terminal.terminalResult →
      ∀ step ∈ [distant], terminal.key ∉ step.dependencyKeys) ∧
    (∀ key ∈ stepKeys [distant], ReachesTerminal [distant] key) ∧
    ¬ ∃ graph, DependencyGraph.build support [distant] 1 1 = .ok graph := by
  have free : ∀ key dependency, ¬ DependsOn [distant] key dependency := by simp [DependsOn, distant]
  refine ⟨by simp, by simp [stepKeys], by simp [KnownDependencies, distant], fun key cycle => ?_,
    ⟨distant, by simp, rfl⟩,
    by simp [distant], fun key member => ⟨distant, by simp, rfl, ?_⟩, fun built => ?_⟩
  · cases cycle with
    | single edge => exact free _ _ edge
    | tail _ edge => exact free _ _ edge
  · rw [List.mem_singleton.mp member]
  · have buildable := (build_ok keeps).mp built
    have short : (Nat.toDigits 10 (10 ^ 4300)).length ≤ 4300 :=
      buildable.printable distant List.mem_cons_self
    exact absurd ((Nat.length_toDigits_le_iff (by decide) (by decide)).mp short) (lt_irrefl _)

end ReviewedDraft

end MarketingAgents
