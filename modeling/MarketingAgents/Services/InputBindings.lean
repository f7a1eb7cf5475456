import Mathlib
import MarketingAgents.Domain.DependencyGraph
import MarketingAgents.Security.RedactionClassification

namespace MarketingAgents.InputBindings

open Library

/-! # Typed step inputs

A step's input is bound from values of the admitted work payload and of the
artifacts of its ancestors, each named by a binding.
-/

def MAX_POINTER_LENGTH : Nat := 500

def MAX_POINTER_SEGMENTS : Nat := 16

def decodeSegment : List Char → Except Rejection (List Char)
  | [] => .ok []
  | '~' :: '0' :: rest => (decodeSegment rest).map ('~' :: ·)
  | '~' :: '1' :: rest => (decodeSegment rest).map ('/' :: ·)
  | '~' :: _ => reject "invalid_pointer" "source pointer has an invalid escape"
  | character :: rest => (decodeSegment rest).map (character :: ·)

def decodePointer (pointer : String) (allowRoot : Bool) : Except Rejection (List String) := do
  require (pointer.length ≤ MAX_POINTER_LENGTH) "invalid_pointer"
    "source pointer must be a bounded JSON pointer"
  match pointer.toList with
  | [] =>
      require (allowRoot = true) "unbounded_work_input"
        "work input bindings must select a declared non-root field"
      return []
  | first :: rest =>
      require (first = '/') "invalid_pointer" "source pointer must begin with a slash"
      let rawSegments := rest.splitOn '/'
      require (rawSegments.length ≤ MAX_POINTER_SEGMENTS) "invalid_pointer"
        "source pointer has too many segments"
      let decoded ← rawSegments.mapM decodeSegment
      return decoded.map String.ofList

/-- An array index without leading zeros. -/
def arrayIndex (segment : String) : Option Nat :=
  match segment.toList with
  | [] => none
  | ['0'] => some 0
  | first :: rest =>
      if '1' ≤ first ∧ first ≤ '9' ∧ rest.all Char.isDigit then
        some (Nat.ofDigitChars 10 (first :: rest) 0)
      else none

section

variable {φ : Type}

/-- The value behind the decoded segments. -/
def walk : PythonValue φ → List String → Except Rejection (PythonValue φ)
  | value, [] => .ok value
  | .mapping members, segment :: rest => do
      let member ← requireSome ((PythonValue.mapping members).item? segment)
        "source_pointer_missing" "source pointer does not resolve to a declared value"
      walk member rest
  | .sequence items, segment :: rest => do
      let index ← requireSome (arrayIndex segment)
        "source_pointer_missing" "source pointer contains an invalid array index"
      let item ← requireSome items[index]? "source_pointer_missing"
        "source pointer array index is out of bounds"
      walk item rest
  | _, _ :: _ => reject "source_pointer_missing" "source pointer traverses a non-container value"

def resolvePointer (value : PythonValue φ) (pointer : String) (allowRoot : Bool) :
    Except Rejection (PythonValue φ) := do
  let segments ← decodePointer pointer allowRoot
  walk value segments

inductive InputBinding where
  | work (targetKey sourcePointer : String)
  | artifact (targetKey artifactId producerStepKey sourcePointer expectedSchemaId : String)

/-- The complete declared inputs and trusted schema for one target step. -/
structure StepInputContract (φ : Type) where
  targetStepKey : String
  inputSchemaId : String
  inputSchema : PythonValue φ
  bindings : List InputBinding

/-- Admitted-input and runtime-snapshot identity used during binding. -/
structure BindingContext (φ : Type) where
  workItemId : String
  runId : String
  admittedInputDigest : String
  workflowId : String
  workflowVersion : String
  catalogHash : String
  admittedPayload : PythonValue φ
  admittedClassification : DataClassification
  stepIdsByKey : String → Option String

/-- The provenance that binding looks at. -/
structure ArtifactProvenance where
  artifactId : String
  workItemId : String
  runId : String
  stepId : String
  workflowId : String
  workflowVersion : String
  admittedInputDigest : String
  catalogHash : String
  outputSchemaId : String
  payloadHash : String
  classification : DataClassification

structure ArtifactEnvelope (φ : Type) where
  payload : PythonValue φ
  provenance : ArtifactProvenance

def ARTIFACT_HASH_DOMAIN : ByteArray := "marketing-agents:artifact-payload:v1\x00".toByteArray

def ArtifactEnvelope.verifyPayload (support : HashSupport φ) (artifact : ArtifactEnvelope φ) :
    Except Rejection Bool := do
  let bytes ← canonicalJsonBytes support.text support.numbers artifact.payload
  return support.sha256 (ARTIFACT_HASH_DOMAIN ++ bytes) = artifact.provenance.payloadHash

def catalogDigest (value : String) : Except Rejection String := do
  let digest := if "catalog-sha256-v1:".toList <+: value.toList then
      String.ofList (value.toList.drop "catalog-sha256-v1:".toList.length)
    else value
  recoded "artifact_scope_mismatch" (requireDigest digest "catalog hash")
  return digest

/-- The catalog hashes are compared last, without their versions. -/
def ArtifactProvenance.inScope (provenance : ArtifactProvenance) (context : BindingContext φ) :
    Except Rejection Bool :=
  if provenance.runId = context.runId ∧ provenance.workItemId = context.workItemId ∧
      provenance.admittedInputDigest = context.admittedInputDigest ∧
        provenance.workflowId = context.workflowId ∧
        provenance.workflowVersion = context.workflowVersion then do
    let produced ← catalogDigest provenance.catalogHash
    let admitted ← catalogDigest context.catalogHash
    return produced = admitted
  else .ok false

/-- Safe immutable lineage retained beside values consumed from an artifact. -/
structure BoundArtifactReference where
  artifactId : String
  producerStepKey : String
  runtimeStepId : String
  schemaId : String
  payloadHash : String
  classification : DataClassification

def BoundArtifactReference.make (reference : BoundArtifactReference) :
    Except Rejection BoundArtifactReference := do
  recoded "invalid_artifact_reference" (requireId reference.artifactId "artifact ID")
  recoded "invalid_artifact_reference" (requireId reference.producerStepKey "producer step key")
  recoded "invalid_artifact_reference" (requireId reference.runtimeStepId "runtime step ID")
  recoded "invalid_artifact_reference" (requireId reference.schemaId "artifact schema ID")
  recoded "artifact_hash_mismatch" (requireDigest reference.payloadHash "artifact payload hash")
  return reference

/-- Schema-valid bounded input plus explicit artifact lineage references. -/
structure BoundStepInput (φ : Type) where
  schemaId : String
  payload : List (String × PythonValue φ)
  artifactReferences : List BoundArtifactReference
  classification : DataClassification

/-- The runtime policy's checks of a payload against a schema. -/
structure RuntimePolicyGuard (φ : Type) where
  validateInput : PythonValue φ → PythonValue φ → Except Rejection Unit
  validateOutput : PythonValue φ → PythonValue φ → Except Rejection Unit

/-- What the artifacts and the schemas of a run are looked up in. -/
structure ArtifactStore (φ : Type) where
  artifacts : String → Option (ArtifactEnvelope φ)
  schemas : String → Option (PythonValue φ)

/-- What has been bound so far. -/
structure PartialInput (φ : Type) where
  payload : List (String × PythonValue φ) := []
  references : List BoundArtifactReference := []
  validated : List (String × String) := []

/-- An assignment to a key of a dictionary. -/
def assign (payload : List (String × PythonValue φ)) (key : String) (value : PythonValue φ) :
    List (String × PythonValue φ) :=
  if payload.any fun member => member.1 = key then
    payload.map fun member => if member.1 = key then (key, value) else member
  else payload ++ [(key, value)]

section

variable (support : HashSupport φ) (guard : RuntimePolicyGuard φ) (ancestors : List String)
  (context : BindingContext φ)
variable (store : ArtifactStore φ)

/-- The artifact that a binding names, with the schema it has to meet. -/
def readArtifact (artifactId runtimeStepId expectedSchemaId : String) :
    Except Rejection (ArtifactEnvelope φ × PythonValue φ) := do
  let artifact ← requireSome (store.artifacts artifactId) "artifact_not_found"
    "bound artifact does not exist"
  require (artifact.provenance.artifactId = artifactId) "artifact_scope_mismatch"
    "artifact lookup key and provenance ID differ"
  let verified ← artifact.verifyPayload support
  require (verified = true) "artifact_hash_mismatch"
    "artifact payload no longer matches its provenance"
  let inScope ← artifact.provenance.inScope context
  require (inScope = true) "artifact_scope_mismatch"
    "artifact provenance does not match the admitted runtime snapshot"
  require (artifact.provenance.stepId = runtimeStepId) "artifact_producer_mismatch"
    "artifact producer does not match the declared runtime step"
  require (artifact.provenance.outputSchemaId = expectedSchemaId) "artifact_schema_mismatch"
    "artifact schema does not match the declared binding schema"
  let schema ← requireSome (store.schemas expectedSchemaId) "artifact_schema_missing"
    "declared artifact schema is not registered"
  return (artifact, schema)

/-- An artifact is checked once against each schema. -/
def validateOnce (validated : List (String × String)) (validationKey : String × String)
    (payload schema : PythonValue φ) : Except Rejection (List (String × String)) :=
  if validationKey ∈ validated then .ok validated
  else do
    guard.validateOutput payload schema
    return validationKey :: validated

/-- An artifact is referenced once. -/
def referOnce (references : List BoundArtifactReference) (reference : BoundArtifactReference) :
    Except Rejection (List BoundArtifactReference) :=
  if references.any fun known => known.artifactId = reference.artifactId then .ok references
  else do
    let made ← reference.make
    return references ++ [made]

def bindArtifact (bound : PartialInput φ)
    (targetKey artifactId producerStepKey sourcePointer expectedSchemaId runtimeStepId : String)
    (artifact : ArtifactEnvelope φ) (schema : PythonValue φ) :
      Except Rejection (PartialInput φ) := do
  let validated ← validateOnce guard bound.validated
    (artifactId, expectedSchemaId) artifact.payload schema
  let value ← resolvePointer artifact.payload sourcePointer true
  let references ← referOnce bound.references {
    artifactId, producerStepKey, runtimeStepId
    schemaId := expectedSchemaId
    payloadHash := artifact.provenance.payloadHash
    classification := artifact.provenance.classification }
  return { payload := assign bound.payload targetKey value, references, validated }

def bindOne (bound : PartialInput φ) : InputBinding → Except Rejection (PartialInput φ)
  | .work targetKey sourcePointer => do
      let value ← resolvePointer context.admittedPayload sourcePointer false
      return { bound with payload := assign bound.payload targetKey value }
  | .artifact targetKey artifactId producerStepKey sourcePointer expectedSchemaId => do
      require (producerStepKey ∈ ancestors) "artifact_not_ancestor"
        "artifact producer is not an ancestor of the target"
      let runtimeStepId ← requireSome (context.stepIdsByKey producerStepKey)
        "missing_step_runtime_id" "artifact producer has no runtime step identity"
      let found ← readArtifact support context store artifactId runtimeStepId expectedSchemaId
      bindArtifact guard bound targetKey artifactId producerStepKey sourcePointer
        expectedSchemaId runtimeStepId found.1 found.2

/-- The join of the classifications. -/
def highestClassification (first : DataClassification) (others : List DataClassification) :
    DataClassification :=
  others.foldl (fun highest other => higherClassification highest (some other)) first

/-- `TypedInputBinder.bind`. -/
def bind (contract : StepInputContract φ) (graph : DependencyGraph) :
    Except Rejection (BoundStepInput φ) := do
  let _ ← requireSome (stepByKey graph.steps contract.targetStepKey) "unknown_target_step"
    "target step is absent from the graph"
  let _ ← requireSome (context.stepIdsByKey contract.targetStepKey) "missing_step_runtime_id"
    "target step has no persisted runtime identity"
  let ancestors ← graph.ancestors contract.targetStepKey
  let bound ← contract.bindings.foldlM (bindOne support guard ancestors context store) {}
  guard.validateInput (.record bound.payload) contract.inputSchema
  recoded "invalid_input_schema" (requireId contract.inputSchemaId "bound input schema ID")
  return {
    schemaId := contract.inputSchemaId
    payload := bound.payload
    artifactReferences := bound.references
    classification :=
      highestClassification context.admittedClassification
        (bound.references.map (·.classification)) }

end

end

/-- Two results of one kind: related values or errors with one code. -/
def Outcome {α β : Type} (same : α → β → Prop) : Except Rejection α → Except Rejection β → Prop
  | .ok left, .ok right => same left right
  | .error left, .error right => left.code = right.code
  | _, _ => False

namespace Outcome

variable {α β γ δ : Type}

theorem refl (result : Except Rejection α) : Outcome (· = ·) result result := by
  cases result with
  | ok value => exact rfl
  | error reason => exact rfl

theorem of_eq {left right : Except Rejection α} (same : left = right) :
    Outcome (· = ·) left right := same ▸ refl left

theorem bind {same : α → β → Prop} {later : γ → δ → Prop}
    {first : α → Except Rejection γ} {second : β → Except Rejection δ}
    (outcome : Outcome same left right)
    (next : ∀ a b, same a b → Outcome later (first a) (second b)) :
      Outcome later (left >>= first) (right >>= second) := by
  cases left with
  | ok a =>
      cases right with
      | ok b => exact next a b outcome
      | error reason => exact outcome.elim
  | error reason =>
      cases right with
      | ok b => exact outcome.elim
      | error other => exact outcome

theorem requireSome {left right : Option α} (same : left.isSome = right.isSome) :
    Outcome (fun _ _ => True) (MarketingAgents.requireSome left code message)
      (MarketingAgents.requireSome right code message) := by
  cases left with
  | none =>
      cases right with
      | none => exact rfl
      | some => cases same
  | some =>
      cases right with
      | none => cases same
      | some => exact trivial

theorem foldlM {first second : α → β → Except Rejection α} {members : List β}
    (step : ∀ member ∈ members, ∀ before, Outcome (· = ·) (first before member)
      (second before member)) (start : α) :
    Outcome (· = ·) (members.foldlM first start) (members.foldlM second start) := by
  induction members generalizing start with
  | nil => exact refl _
  | cons member rest ih =>
      obtain ⟨head, tail⟩ := List.forall_mem_cons.mp step
      rw [List.foldlM_cons, List.foldlM_cons]
      refine (head start).bind fun before after same => ?_
      rw [same]
      exact ih tail after

end Outcome

section

variable {φ : Type}

theorem walk_error
    (failed : walk value segments = .error reason) : reason.code = "source_pointer_missing" := by
  fun_induction walk value segments with
  | case1 => cases failed
  | case2 members segment rest ih =>
      rcases bind_error.mp failed with missing | ⟨member, _, later⟩
      · rw [(requireSome_error.mp missing).2]
      · exact ih member later
  | case3 items segment rest ih =>
      rcases bind_error.mp failed with missing | ⟨index, _, later⟩
      · rw [(requireSome_error.mp missing).2]
      · rcases bind_error.mp later with outside | ⟨item, _, last⟩
        · rw [(requireSome_error.mp outside).2]
        · exact ih item last
  | case4 =>
      cases failed
      rfl

theorem resolvePointer_outcome {allowRoot : Bool}
    (same : (resolvePointer left pointer allowRoot).toOption =
      (resolvePointer right pointer allowRoot).toOption) :
    Outcome (· = ·) (resolvePointer left pointer allowRoot)
      (resolvePointer right pointer allowRoot) := by
  unfold resolvePointer at same ⊢
  generalize decodePointer pointer allowRoot = decoded at same ⊢
  cases decoded with
  | error reason => exact Outcome.refl _
  | ok segments =>
      change (walk left segments).toOption = (walk right segments).toOption at same
      change Outcome (· = ·) (walk left segments) (walk right segments)
      cases found : walk left segments with
      | ok value =>
          cases known : walk right segments with
          | ok other =>
              rw [found, known] at same
              exact Option.some.inj same
          | error reason =>
              rw [found, known] at same
              cases same
      | error reason =>
          cases known : walk right segments with
          | ok other =>
              rw [found, known] at same
              cases same
          | error other => exact (walk_error found).trans (walk_error known).symm

/-- Two executions that agree on the snapshot and on what the bindings name. Of a producer that is
no ancestor nothing has to agree. -/
structure BindingAgreement (contract : StepInputContract φ) (graph : DependencyGraph)
    (left right : BindingContext φ) (leftStore rightStore : ArtifactStore φ) : Prop where
  workItemId : left.workItemId = right.workItemId
  runId : left.runId = right.runId
  admittedInputDigest : left.admittedInputDigest = right.admittedInputDigest
  workflowId : left.workflowId = right.workflowId
  workflowVersion : left.workflowVersion = right.workflowVersion
  catalogHash : left.catalogHash = right.catalogHash
  target : (left.stepIdsByKey contract.targetStepKey).isSome =
    (right.stepIdsByKey contract.targetStepKey).isSome
  work : ∀ targetKey sourcePointer, InputBinding.work targetKey sourcePointer ∈ contract.bindings →
    (resolvePointer left.admittedPayload sourcePointer false).toOption =
      (resolvePointer right.admittedPayload sourcePointer false).toOption
  artifact : ∀ targetKey artifactId producerStepKey sourcePointer expectedSchemaId,
    InputBinding.artifact targetKey artifactId producerStepKey sourcePointer expectedSchemaId ∈
      contract.bindings →
    graph.StrictAncestor contract.targetStepKey producerStepKey →
    left.stepIdsByKey producerStepKey = right.stepIdsByKey producerStepKey ∧
      leftStore.artifacts artifactId = rightStore.artifacts artifactId ∧
        leftStore.schemas expectedSchemaId = rightStore.schemas expectedSchemaId

namespace BindingAgreement

variable {contract : StepInputContract φ} {graph : DependencyGraph} {left right : BindingContext φ}
variable {leftStore rightStore : ArtifactStore φ}

theorem inScope (agree : BindingAgreement contract graph left right leftStore rightStore)
    (provenance : ArtifactProvenance) :
    provenance.inScope left = provenance.inScope right := by
  rw [ArtifactProvenance.inScope, ArtifactProvenance.inScope, agree.workItemId, agree.runId,
    agree.admittedInputDigest, agree.workflowId, agree.workflowVersion, agree.catalogHash]

theorem bindOne (agree : BindingAgreement contract graph left right leftStore rightStore)
    (support : HashSupport φ) (guard : RuntimePolicyGuard φ) {ancestors : List String}
    (searched : graph.ancestors contract.targetStepKey = .ok ancestors) {binding : InputBinding}
    (member : binding ∈ contract.bindings) (before : PartialInput φ) :
    Outcome (· = ·) (InputBindings.bindOne support guard ancestors left leftStore before binding)
      (InputBindings.bindOne support guard ancestors right rightStore before binding) := by
  cases binding with
  | work targetKey sourcePointer =>
      refine (resolvePointer_outcome (agree.work targetKey sourcePointer member)).bind
        fun value other same => ?_
      rw [same]
      exact Outcome.refl _
  | artifact targetKey artifactId producerStepKey sourcePointer expectedSchemaId =>
      apply Outcome.of_eq
      by_cases above : producerStepKey ∈ ancestors
      · obtain ⟨stepId, artifact, schema⟩ :=
          agree.artifact targetKey artifactId producerStepKey sourcePointer
          expectedSchemaId member ((DependencyGraph.mem_ancestors searched).mp above)
        simp only [InputBindings.bindOne, readArtifact, stepId, artifact, schema, agree.inScope]
      · simp only [InputBindings.bindOne, require, if_neg above, reject]
        rfl

theorem bind (agree : BindingAgreement contract graph left right leftStore rightStore)
    (support : HashSupport φ) (guard : RuntimePolicyGuard φ) :
    Outcome (fun first second : BoundStepInput φ => first.schemaId = second.schemaId ∧
      first.payload = second.payload ∧
        first.artifactReferences = second.artifactReferences)
      (InputBindings.bind support guard left leftStore contract graph)
      (InputBindings.bind support guard right rightStore contract graph) := by
  refine (Outcome.refl _).bind fun _ _ _ => ?_
  refine (Outcome.requireSome agree.target).bind fun _ _ _ => ?_
  cases searched : graph.ancestors contract.targetStepKey with
  | error reason => exact rfl
  | ok ancestors =>
      refine (Outcome.foldlM (fun binding member before =>
        agree.bindOne support guard searched member before) _).bind ?_
      intro first second same
      rw [same]
      refine (Outcome.refl _).bind fun _ _ _ => (Outcome.refl _).bind fun _ _ _ => ?_
      exact ⟨rfl, rfl, rfl⟩

end BindingAgreement

/-- An artifact that a binding read. -/
structure ReadFrom (graph : DependencyGraph) (targetStepKey : String) (context : BindingContext φ)
    (store : ArtifactStore φ) (producerStepKey artifactId expectedSchemaId : String)
    (artifact : ArtifactEnvelope φ) : Prop where
  ancestor : graph.StrictAncestor targetStepKey producerStepKey
  found : store.artifacts artifactId = some artifact
  producer : context.stepIdsByKey producerStepKey = some artifact.provenance.stepId
  run : artifact.provenance.runId = context.runId
  schema : artifact.provenance.outputSchemaId = expectedSchemaId

/-- The references hold the classification of every artifact that was bound. -/
structure PartialInput.Covers (bound : PartialInput φ) (store : ArtifactStore φ)
    (artifactIds : List String) : Prop where
  faithful : ∀ reference ∈ bound.references, ∃ artifact,
    store.artifacts reference.artifactId = some artifact ∧
    reference.classification = artifact.provenance.classification
  covered : ∀ artifactId ∈ artifactIds, ∃ reference ∈ bound.references,
    reference.artifactId = artifactId

def InputBinding.artifactIds : InputBinding → List String
  | .work _ _ => []
  | .artifact _ artifactId _ _ _ => [artifactId]

section

variable {support : HashSupport φ} {guard : RuntimePolicyGuard φ} {ancestors : List String}
  {context : BindingContext φ}
variable {store : ArtifactStore φ} {before after : PartialInput φ}

theorem readArtifact_ok
    (read : readArtifact support context store artifactId runtimeStepId expectedSchemaId =
      .ok found) :
    store.artifacts artifactId = some found.1 ∧ found.1.provenance.stepId = runtimeStepId ∧
      found.1.provenance.runId = context.runId ∧
        found.1.provenance.outputSchemaId = expectedSchemaId := by
  simp only [readArtifact, bind_ok, require_ok, requireSome_ok, pure_ok] at read
  obtain ⟨artifact, present, _, _, _, _, _, _, scope, inScope, _, within, _, producer, _, schema, _,
    _, rfl⟩ := read
  refine ⟨present, producer, ?_, schema⟩
  unfold ArtifactProvenance.inScope at inScope
  split at inScope
  · next same => exact same.1
  · cases inScope
    cases within

theorem referOnce_ok {references after : List BoundArtifactReference}
    {reference : BoundArtifactReference} (referred : referOnce references reference = .ok after) :
    (∀ known ∈ after, known ∈ references ∨ known = reference) ∧
    (∀ known ∈ references, known ∈ after) ∧
      ∃ known ∈ after, known.artifactId = reference.artifactId := by
  unfold referOnce at referred
  split at referred
  · next known =>
      cases referred
      obtain ⟨same, member, equal⟩ := List.any_eq_true.mp known
      exact ⟨fun _ member => .inl member, fun _ member => member, same, member,
        by simpa using equal⟩
  · simp only [bind_ok, pure_ok] at referred
    obtain ⟨made, accepted, rfl⟩ := referred
    have same : reference = made := by
      simp only [BoundArtifactReference.make, bind_ok, pure_ok] at accepted
      obtain ⟨_, _, _, _, _, _, _, _, _, _, rfl⟩ := accepted
      rfl
    rw [← same]
    refine ⟨fun known member => ?_, fun known member => List.mem_append_left _ member,
      reference, by simp, rfl⟩
    rcases List.mem_append.mp member with earlier | last
    · exact .inl earlier
    · exact .inr (List.mem_singleton.mp last)

theorem bindOne_ok {binding : InputBinding} {artifactIds : List String}
    (covers : before.Covers store artifactIds)
    (bound : bindOne support guard ancestors context store before binding = .ok after) :
    after.Covers store (binding.artifactIds ++ artifactIds) := by
  cases binding with
  | work targetKey sourcePointer =>
      simp only [bindOne, bind_ok, pure_ok] at bound
      obtain ⟨value, _, rfl⟩ := bound
      exact ⟨covers.faithful, covers.covered⟩
  | artifact targetKey artifactId producerStepKey sourcePointer expectedSchemaId =>
      simp only [bindOne, bindArtifact, bind_ok, require_ok, requireSome_ok, pure_ok] at bound
      obtain ⟨_, _, runtimeStepId, _, found, read, validated, _, value, _, references,
        referred, rfl⟩ := bound
      obtain ⟨present, _⟩ := readArtifact_ok read
      obtain ⟨only, kept, named⟩ := referOnce_ok referred
      constructor
      · intro reference member
        rcases only reference member with earlier | rfl
        · exact covers.faithful reference earlier
        · exact ⟨found.1, present, rfl⟩
      · refine List.forall_mem_cons.mpr ⟨named, fun other member => ?_⟩
        obtain ⟨reference, listed, same⟩ := covers.covered other member
        exact ⟨reference, kept reference listed, same⟩

theorem bindAll_ok {bindings : List InputBinding} (covers : before.Covers store artifactIds)
    (bound : bindings.foldlM (bindOne support guard ancestors context store) before = .ok after) :
    (after.Covers store artifactIds) ∧ ∀ binding ∈ bindings,
      (after.Covers store binding.artifactIds) ∧
      ∃ middle later, bindOne support guard ancestors context store middle binding = .ok later := by
  induction bindings generalizing before artifactIds with
  | nil =>
      cases bound
      exact ⟨covers, by simp⟩
  | cons binding rest ih =>
      rw [List.foldlM_cons] at bound
      obtain ⟨middle, head, tail⟩ := bind_ok.mp bound
      obtain ⟨all, others⟩ := ih (bindOne_ok covers head) tail
      obtain ⟨first, second⟩ := List.forall_mem_append.mp all.covered
      exact ⟨⟨all.faithful, second⟩,
        List.forall_mem_cons.mpr ⟨⟨⟨all.faithful, first⟩, before, middle, head⟩, others⟩⟩

end

theorem highestClassification_le (first : DataClassification) (others : List DataClassification) :
    ∀ label ∈ first :: others, label.rank ≤ (highestClassification first others).rank := by
  induction others generalizing first with
  | nil => simp [highestClassification]
  | cons other rest ih =>
      have later := ih (higherClassification first (some other))
      obtain ⟨top, below⟩ := List.forall_mem_cons.mp later
      refine List.forall_mem_cons.mpr ⟨(le_higher_left _ _).trans top,
        List.forall_mem_cons.mpr ⟨?_, below⟩⟩
      exact (le_higher_right _ _).trans top

/-- Binding depends on what is declared only, reads artifacts of strict ancestors only, and its
result is classified at least as high as all that it was bound from. -/
theorem bind_confined (support : HashSupport φ) (guard : RuntimePolicyGuard φ)
    (contract : StepInputContract φ)
    (graph : DependencyGraph) (context : BindingContext φ) (store : ArtifactStore φ) :
    (∀ (other : BindingContext φ) (otherStore : ArtifactStore φ),
        BindingAgreement contract graph context other store otherStore →
        Outcome (fun first second : BoundStepInput φ => first.schemaId = second.schemaId ∧
            first.payload = second.payload ∧ first.artifactReferences = second.artifactReferences)
          (bind support guard context store contract graph)
            (bind support guard other otherStore contract graph)) ∧
      ∀ bound, bind support guard context store contract graph = .ok bound →
        context.admittedClassification.rank ≤ bound.classification.rank ∧
        ∀ targetKey artifactId producerStepKey sourcePointer expectedSchemaId,
          InputBinding.artifact targetKey artifactId producerStepKey sourcePointer
            expectedSchemaId ∈ contract.bindings →
          ∃ artifact, ReadFrom graph contract.targetStepKey context store producerStepKey artifactId
            expectedSchemaId artifact ∧
            artifact.provenance.classification.rank ≤ bound.classification.rank ∧
            ∀ (graphSupport : HashSupport φ) (steps : List TopologyStep)
            (workflowMaxSteps globalMaxSteps : Int),
              DependencyGraph.build graphSupport steps workflowMaxSteps globalMaxSteps = .ok graph →
                producerStepKey ≠ contract.targetStepKey := by
  refine ⟨fun other otherStore agree => agree.bind support guard, fun bound built => ?_⟩
  simp only [bind, bind_ok, requireSome_ok, pure_ok] at built
  obtain ⟨_, _, _, _, ancestors, searched, partialInput, folded, _, _, _, _, rfl⟩ := built
  have empty : PartialInput.Covers ({} : PartialInput φ) store [] := ⟨by simp, by simp⟩
  obtain ⟨_, each⟩ := bindAll_ok empty folded
  have below := highestClassification_le context.admittedClassification
    (partialInput.references.map (·.classification))
  obtain ⟨admitted, referenced⟩ := List.forall_mem_cons.mp below
  refine ⟨admitted, fun targetKey artifactId producerStepKey sourcePointer
    expectedSchemaId member => ?_⟩
  obtain ⟨covers, before, after, bound⟩ := each _ member
  simp only [bindOne, bind_ok, require_ok, requireSome_ok] at bound
  obtain ⟨_, above, runtimeStepId, identity, found, read, _⟩ := bound
  obtain ⟨present, producer, run, schema⟩ := readArtifact_ok read
  have ancestor := (DependencyGraph.mem_ancestors searched).mp above
  refine ⟨found.1, ⟨ancestor, present, by rw [producer, identity], run, schema⟩, ?_,
    fun _ _ _ _ built => ancestor.ne built⟩
  obtain ⟨reference, listed, same⟩ := covers.covered artifactId List.mem_cons_self
  obtain ⟨artifact, known, label⟩ := covers.faithful reference listed
  rw [same, present] at known
  cases known
  rw [← label]
  exact referenced _ (List.mem_map_of_mem listed)

end

namespace OtherRun

def support : HashSupport Bool where
  text := acuteSupport
  numbers := halfSupport
  sha256 _ := String.ofList (List.replicate 64 'a')

def graph : DependencyGraph where
  steps := [ReviewedDraft.review, ReviewedDraft.draft]
  topologicalOrder := ["draft", "review"]
  roots := ["draft"]
  terminalResults := ["review"]
  semanticHash := ""

def context : BindingContext Bool where
  workItemId := "work.first"
  runId := "run.first"
  admittedInputDigest := String.ofList (List.replicate 64 'b')
  workflowId := "workflow.review"
  workflowVersion := "1"
  catalogHash := String.ofList (List.replicate 64 'c')
  admittedPayload := .mapping []
  admittedClassification := .internal
  stepIdsByKey key := some ("step." ++ key)

def artifact : ArtifactEnvelope Bool where
  payload := .mapping []
  provenance := {
    artifactId := "artifact.draft"
    workItemId := "work.first"
    runId := "run.first"
    stepId := "step.draft"
    workflowId := "workflow.review"
    workflowVersion := "1"
    admittedInputDigest := String.ofList (List.replicate 64 'b')
    catalogHash := String.ofList (List.replicate 64 'c')
    outputSchemaId := "schema.draft"
    payloadHash := String.ofList (List.replicate 64 'a')
    classification := .personal }

def store : ArtifactStore Bool where
  artifacts _ := some artifact
  schemas _ := some (.mapping [])

def contract : StepInputContract Bool where
  targetStepKey := "review"
  inputSchemaId := "schema.review"
  inputSchema := .mapping []
  bindings := [.artifact "draft" "artifact.draft" "draft" "" "schema.draft"]

def lenient : RuntimePolicyGuard Bool where
  validateInput _ _ := .ok ()
  validateOutput _ _ := .ok ()

/-- The same execution under another run identity. -/
def otherContext : BindingContext Bool := { context with runId := "run.second" }

theorem ancestors_review : graph.ancestors "review" = .ok ["draft"] := by
  have edges : dependencyEdges graph.steps = [("review", ["draft"]), ("draft", [])] := rfl
  have gathered : Graph.gather (dependencyEdges graph.steps) ["draft"] [] = some ["draft"] := by
    have leaf : Graph.targets [("review", ["draft"]), ("draft", [])] "draft" = some [] := rfl
    rw [edges, Graph.gather_push List.not_mem_nil leaf]
    exact Graph.gather_nil
  have known : stepByKey graph.steps "review" = some ReviewedDraft.review := rfl
  rw [DependencyGraph.ancestors, DependencyGraph.step, known]
  change MarketingAgents.requireSome (Graph.gather (dependencyEdges graph.steps) ["draft"] []) _ _ =
    _
  rw [gathered]
  rfl

theorem artifact_verified : artifact.verifyPayload support = .ok true := by
  have keeps : support.text.KeepsAscii := acuteSupport_keepsAscii
  have plain : PlainNames (([] : List (String × PythonValue Bool)).map Prod.fst) := by decide
  have empty : (PythonValue.record ([] : List (String × PythonValue Bool))).Written support.text
    support.numbers :=
    written_record keeps plain (by simp)
  obtain ⟨bytes, written⟩ := empty
  simp only [ArtifactEnvelope.verifyPayload, bind_ok, pure_ok]
  exact ⟨bytes, written, decide_eq_true rfl⟩

theorem artifact_inScope : artifact.provenance.inScope context = .ok true := by
  rw [ArtifactProvenance.inScope, if_pos ⟨rfl, rfl, rfl, rfl, rfl⟩]
  decide

theorem artifact_outOfScope : artifact.provenance.inScope otherContext = .ok false :=
  if_neg (by decide)

theorem artifact_read : readArtifact support context store "artifact.draft" "step.draft"
    "schema.draft" = .ok (artifact, .mapping []) := by
  simp only [readArtifact, bind_ok, require_ok, requireSome_ok, pure_ok]
  exact ⟨artifact, rfl, (), rfl, true, artifact_verified, (), rfl, true, artifact_inScope, (), rfl,
    (), rfl, (), rfl, .mapping [], rfl, rfl⟩

theorem artifact_unread :
    readArtifact support otherContext store "artifact.draft" "step.draft" "schema.draft" = .error {
      code := "artifact_scope_mismatch"
      message := "artifact provenance does not match the admitted runtime snapshot" } :=
  bind_error.mpr (.inr ⟨artifact, rfl,
    bind_error.mpr (.inr ⟨(), rfl, bind_error.mpr (.inr ⟨true, artifact_verified,
    bind_error.mpr (.inr ⟨(), rfl,
      bind_error.mpr (.inr ⟨false, artifact_outOfScope, bind_error.mpr (.inl rfl)⟩)⟩)⟩)⟩)⟩)

theorem review_schema : recoded "invalid_input_schema"
    (requireId contract.inputSchemaId "bound input schema ID") = .ok () := by
  decide

def draftReference : BoundArtifactReference where
  artifactId := "artifact.draft"
  producerStepKey := "draft"
  runtimeStepId := "step.draft"
  schemaId := "schema.draft"
  payloadHash := String.ofList (List.replicate 64 'a')
  classification := .personal

theorem draft_referred : referOnce [] draftReference = .ok [draftReference] := by
  rw [referOnce, if_neg (by decide)]
  refine bind_ok.mpr ⟨draftReference, ?_, rfl⟩
  simp only [BoundArtifactReference.make, bind_ok, pure_ok]
  exact ⟨(), by decide, (), by decide, (), by decide, (), by decide, (), by decide, trivial⟩

theorem draft_bound : ∃ bound, contract.bindings.foldlM
    (bindOne support lenient ["draft"] context store) {} = .ok bound :=
  ⟨_, bind_ok.mpr ⟨_, bind_ok.mpr ⟨(), rfl,
    bind_ok.mpr ⟨"step.draft", rfl, bind_ok.mpr ⟨(artifact, .mapping []),
    artifact_read, bind_ok.mpr ⟨[("artifact.draft", "schema.draft")], rfl,
      bind_ok.mpr ⟨.mapping [], rfl,
    bind_ok.mpr ⟨[draftReference], draft_referred, rfl⟩⟩⟩⟩⟩⟩, rfl⟩⟩

theorem review_bound : ∃ bound, bind support lenient context store contract graph = .ok bound := by
  obtain ⟨bound, folded⟩ := draft_bound
  exact ⟨_, bind_ok.mpr ⟨ReviewedDraft.review, rfl, bind_ok.mpr ⟨"step.review", rfl,
    bind_ok.mpr ⟨["draft"], ancestors_review, bind_ok.mpr ⟨bound, folded, bind_ok.mpr ⟨(), rfl,
    bind_ok.mpr ⟨(), review_schema, rfl⟩⟩⟩⟩⟩⟩⟩

/-- The input and the artifact are the same, but another run may not bind it. -/
theorem other_run_refused :
    (∃ bound, bind support lenient context store contract graph = .ok bound) ∧
    otherContext.admittedPayload = context.admittedPayload ∧
    bind support lenient otherContext store contract graph = .error {
      code := "artifact_scope_mismatch"
      message := "artifact provenance does not match the admitted runtime snapshot" } := by
  refine ⟨review_bound, rfl, ?_⟩
  refine bind_error.mpr (.inr ⟨ReviewedDraft.review, rfl, bind_error.mpr (.inr ⟨"step.review", rfl,
    bind_error.mpr (.inr ⟨["draft"], ancestors_review, bind_error.mpr (.inl ?_)⟩)⟩)⟩)
  refine bind_error.mpr (.inl
    (bind_error.mpr (.inr ⟨(), rfl, bind_error.mpr (.inr ⟨"step.draft", rfl, ?_⟩)⟩)))
  exact bind_error.mpr (.inl artifact_unread)

/-- The same run with another payload and other steps, of which no binding says anything. -/
def variedContext : BindingContext Bool :=
  { context with
    admittedPayload := .mapping [(some "note", .bool true)]
    admittedClassification := .sensitive
    stepIdsByKey := fun key => some (if key = "draft" then "step.draft" else "other.step") }

def variedStore : ArtifactStore Bool where
  artifacts artifactId := if artifactId = "artifact.draft" then some artifact else none
  schemas schemaId := if schemaId = "schema.draft" then some (.mapping []) else none

theorem varied_agrees : BindingAgreement contract graph context variedContext store
    variedStore where
  workItemId := rfl
  runId := rfl
  admittedInputDigest := rfl
  workflowId := rfl
  workflowVersion := rfl
  catalogHash := rfl
  target := rfl
  work targetKey sourcePointer member := by
    simp [contract] at member
  artifact targetKey artifactId producerStepKey sourcePointer expectedSchemaId member _ := by
    simp only [contract, List.mem_singleton, InputBinding.artifact.injEq] at member
    obtain ⟨_, rfl, rfl, _, rfl⟩ := member
    exact ⟨rfl, rfl, rfl⟩

theorem bind_confined_varied : ∃ bound varied,
    bind support lenient context store contract graph = .ok bound ∧
      bind support lenient variedContext variedStore contract graph = .ok varied ∧
      bound.payload = varied.payload ∧ bound.artifactReferences = varied.artifactReferences := by
  obtain ⟨bound, first⟩ := review_bound
  have agreed := (bind_confined support lenient contract graph context store).1
    variedContext variedStore varied_agrees
  rw [first] at agreed
  cases second : bind support lenient variedContext variedStore contract graph with
  | error reason =>
      rw [second] at agreed
      exact agreed.elim
  | ok varied =>
      rw [second] at agreed
      obtain ⟨_, payload, references⟩ := agreed
      exact ⟨bound, varied, first, rfl, payload, references⟩

end OtherRun

end MarketingAgents.InputBindings
