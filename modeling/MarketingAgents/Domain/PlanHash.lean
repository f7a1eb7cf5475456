import MarketingAgents.Domain.DataClassification
import MarketingAgents.Domain.PolicyHash
import MarketingAgents.Domain.Validation

namespace MarketingAgents

/-! # The structural plan hash

A plan is hashed without the identities of its run, over every field that its
steps and its run policy carry.
-/

/-- The exact step fields bound by the structural plan hash. -/
structure EffectPlanStepHashMaterial where
  stepKey : String
  kind : String
  selectedInstanceId : String
  routingSlotKey : Option String
  templateId : String
  configurationRevision : Nat
  capabilityId : String
  effect : Effect
  connectorFamily : String
  bindingId : Option String
  bindingConfigurationRevision : Option Nat
  requestSchemaId : Option String
  resultSchemaId : Option String
  resultSchemaHash : Option String
  requestRedactionFields : List String
  resultRedactionFields : List String
  dataClassification : DataClassification
  idempotencySupport : String
  connectorTimeoutSeconds : Option Nat
  approvalPolicyId : String
  approvalRequiredRoles : List String
  approvalRequiredScopes : List String
  approvalExpiresAfterSeconds : Option Nat
  approvalAllowSelfApproval : Option Bool
  runtimePolicy : PlannedRuntimePolicy
deriving DecidableEq

/-- A planned step: what its plan binds, and its identity in one run. -/
structure EffectPlannedStep extends EffectPlanStepHashMaterial where
  runtimeStepId : String
deriving DecidableEq

/-- The structural snapshot of a plan, and the run it was made for. -/
structure EffectPlanSnapshot where
  runId : String
  workflowId : String
  workflowVersion : Nat
  workflowDefinitionHash : String
  catalogContentHash : String
  graphHash : String
  routingHash : String
  runPolicy : RunRuntimePolicy
  steps : List EffectPlannedStep
deriving DecidableEq

def Effect.value : Effect → String
  | read => "read"
  | write => "write"

def effectPlanHashDomain : ByteArray := "marketing-agents:effect-plan:v5\x00".toByteArray

namespace EffectPlanStepHashMaterial

def validate (step : EffectPlanStepHashMaterial) : Except Rejection Unit := do
  requireOptional (requireSchemaHash · "plan hash result schema hash") step.resultSchemaHash
  require (step.resultSchemaId.isNone = step.resultSchemaHash.isNone) "ValueError"
    "plan hash result schema ID and hash must be present together"

section

variable {φ : Type} (support : HashSupport φ) (step : EffectPlanStepHashMaterial)

def approvalPolicy : List (String × PythonValue φ) :=
  [("id", .str step.approvalPolicyId),
    ("required_roles", .strings step.approvalRequiredRoles),
    ("required_scopes", .strings step.approvalRequiredScopes),
    ("expires_after_seconds",
      .optional (fun value : Nat => .int value) step.approvalExpiresAfterSeconds),
    ("allow_self_approval", .optional .bool step.approvalAllowSelfApproval)]

def projection (runtimePolicy : PythonValue φ) : List (String × PythonValue φ) :=
  [("step_key", .str step.stepKey),
    ("kind", .str step.kind),
    ("selected_instance_id", .str step.selectedInstanceId),
    ("routing_slot_key", .optional .str step.routingSlotKey),
    ("template_id", .str step.templateId),
    ("configuration_revision", .int step.configurationRevision),
    ("capability_id", .str step.capabilityId),
    ("effect", .str step.effect.value),
    ("connector_family", .str step.connectorFamily),
    ("binding_id", .optional .str step.bindingId),
    ("binding_configuration_revision",
      .optional (fun value : Nat => .int value) step.bindingConfigurationRevision),
    ("request_schema_id", .optional .str step.requestSchemaId),
    ("result_schema_id", .optional .str step.resultSchemaId),
    ("result_schema_hash", .optional .str step.resultSchemaHash),
    ("request_redaction_fields", .strings step.requestRedactionFields),
    ("result_redaction_fields", .strings step.resultRedactionFields),
    ("data_classification", .str step.dataClassification.value),
    ("idempotency_support", .str step.idempotencySupport),
    ("connector_timeout_seconds",
      .optional (fun value : Nat => .int value) step.connectorTimeoutSeconds),
    ("approval_policy", .record step.approvalPolicy),
    ("runtime_policy", runtimePolicy)]

def material : Except Rejection (PythonValue φ) := do
  let runtimePolicy ← step.runtimePolicy.material support
  return .record (step.projection runtimePolicy)

end

/-- A step with its texts composed. -/
def composed (text : TextSupport) (step : EffectPlanStepHashMaterial) :
    EffectPlanStepHashMaterial :=
  { step with
    stepKey := text.nfc step.stepKey
    kind := text.nfc step.kind
    selectedInstanceId := text.nfc step.selectedInstanceId
    routingSlotKey := step.routingSlotKey.map text.nfc
    templateId := text.nfc step.templateId
    capabilityId := text.nfc step.capabilityId
    connectorFamily := text.nfc step.connectorFamily
    bindingId := step.bindingId.map text.nfc
    requestSchemaId := step.requestSchemaId.map text.nfc
    resultSchemaId := step.resultSchemaId.map text.nfc
    resultSchemaHash := step.resultSchemaHash.map text.nfc
    requestRedactionFields := step.requestRedactionFields.map text.nfc
    resultRedactionFields := step.resultRedactionFields.map text.nfc
    idempotencySupport := text.nfc step.idempotencySupport
    approvalPolicyId := text.nfc step.approvalPolicyId
    approvalRequiredRoles := step.approvalRequiredRoles.map text.nfc
    approvalRequiredScopes := step.approvalRequiredScopes.map text.nfc
    runtimePolicy := step.runtimePolicy.composed text }

end EffectPlanStepHashMaterial

namespace EffectPlanSnapshot

variable {φ : Type} (support : HashSupport φ) (plan : EffectPlanSnapshot)

def projection (runPolicy : PythonValue φ) (steps : List (PythonValue φ)) :
    List (String × PythonValue φ) :=
  [("version", .int 5),
    ("workflow_id", .str plan.workflowId),
    ("workflow_version", .int plan.workflowVersion),
    ("workflow_definition_hash", .str plan.workflowDefinitionHash),
    ("catalog_content_hash", .str plan.catalogContentHash),
    ("graph_hash", .str plan.graphHash),
    ("routing_hash", .str plan.routingHash),
    ("run_runtime_policy", runPolicy),
    ("steps", .sequence steps)]

/-- What is hashed of the steps of a plan. -/
def hashMaterial : List EffectPlanStepHashMaterial :=
  plan.steps.map (·.toEffectPlanStepHashMaterial)

/-- The text that the plan hash is taken of. -/
def hashPreimage : Except Rejection ByteArray := do
  requireEach (·.validate) plan.hashMaterial
  require (plan.hashMaterial ≠ []) "ValueError"
    "plan hash steps must use exact immutable hash material"
  let runPolicy ← plan.runPolicy.material support
  let steps ← plan.hashMaterial.mapM (·.material support)
  support.preimage effectPlanHashDomain (.record (plan.projection runPolicy steps))

/-- Hash the stable plan projection without runtime identities. -/
def effectPlanHash : Except Rejection String := support.sha256 <$> plan.hashPreimage support

/-- Plans that are equal up to composition, whatever runs they were made for. -/
structure Agrees (text : TextSupport) (first second : EffectPlanSnapshot) : Prop where
  workflowId : text.nfc first.workflowId = text.nfc second.workflowId
  workflowVersion : first.workflowVersion = second.workflowVersion
  workflowDefinitionHash : text.nfc first.workflowDefinitionHash =
    text.nfc second.workflowDefinitionHash
  catalogContentHash : text.nfc first.catalogContentHash = text.nfc second.catalogContentHash
  graphHash : text.nfc first.graphHash = text.nfc second.graphHash
  routingHash : text.nfc first.routingHash = text.nfc second.routingHash
  runPolicy : first.runPolicy = second.runPolicy
  steps : first.hashMaterial.map (·.composed text) = second.hashMaterial.map (·.composed text)

/-- The same plan for another run: its run and its steps get the identities of that run. -/
def relocated (runId : String) (runtimeStepId : EffectPlannedStep → String) : EffectPlanSnapshot :=
  { plan with runId, steps := plan.steps.map fun step => { step with
    runtimeStepId := runtimeStepId step } }

end EffectPlanSnapshot

section

variable {φ : Type} {support : HashSupport φ} {text : TextSupport}

theorem effect_agrees (keeps : text.KeepsAscii) {left right : Effect} :
    text.nfc left.value = text.nfc right.value ↔ left = right := by
  refine enumeration_agrees keeps (fun member => ?_) (fun first second same => ?_)
  · cases member <;> exact plain_of_all (by decide)
  · cases first <;> cases second <;> revert same <;> decide

theorem dataClassification_agrees (keeps : text.KeepsAscii) {left right : DataClassification} :
    text.nfc left.value = text.nfc right.value ↔ left = right := by
  refine enumeration_agrees keeps (fun member => ?_) (fun first second same => ?_)
  · cases member <;> exact plain_of_all (by decide)
  · cases first <;> cases second <;> revert same <;> decide

theorem mapM_agrees {α : Type} {write : α → Except Rejection (PythonValue φ)}
    {related : α → α → Prop}
    (agrees : ∀ {first second left right}, write first = .ok left → write second = .ok right →
      (left.Agrees text right ↔ related first second)) :
    ∀ {firsts seconds : List α} {lefts rights : List (PythonValue φ)},
      firsts.mapM write = .ok lefts → seconds.mapM write = .ok rights →
        (List.Forall₂ (fun left right => left.Agrees text right) lefts rights ↔
          List.Forall₂ related firsts seconds)
  | [], [], _, _, leftWritten, rightWritten => by
      cases leftWritten
      cases rightWritten
      simp
  | [], second :: seconds, _, _, leftWritten, rightWritten => by
      cases leftWritten
      simp only [List.mapM_cons, bind_ok, pure_ok] at rightWritten
      obtain ⟨_, _, _, _, rfl⟩ := rightWritten
      simp
  | first :: firsts, [], _, _, leftWritten, rightWritten => by
      cases rightWritten
      simp only [List.mapM_cons, bind_ok, pure_ok] at leftWritten
      obtain ⟨_, _, _, _, rfl⟩ := leftWritten
      simp
  | first :: firsts, second :: seconds, _, _, leftWritten, rightWritten => by
      simp only [List.mapM_cons, bind_ok, pure_ok] at leftWritten rightWritten
      obtain ⟨left, leftOne, lefts, leftRest, rfl⟩ := leftWritten
      obtain ⟨right, rightOne, rights, rightRest, rfl⟩ := rightWritten
      rw [List.forall₂_cons, List.forall₂_cons, agrees leftOne rightOne,
        mapM_agrees agrees leftRest rightRest]

namespace EffectPlanStepHashMaterial

variable {first second : EffectPlanStepHashMaterial} {left right : PythonValue φ}

theorem approvalPolicy_agrees (keeps : text.KeepsAscii) :
    (PythonValue.record first.approvalPolicy : PythonValue φ).Agrees text
      (.record second.approvalPolicy) ↔
      text.nfc first.approvalPolicyId = text.nfc second.approvalPolicyId ∧
      first.approvalRequiredRoles.map text.nfc = second.approvalRequiredRoles.map text.nfc ∧
      first.approvalRequiredScopes.map text.nfc = second.approvalRequiredScopes.map text.nfc ∧
      first.approvalExpiresAfterSeconds = second.approvalExpiresAfterSeconds ∧
      first.approvalAllowSelfApproval = second.approvalAllowSelfApproval := by
  have plain : PlainNames ["id", "required_roles", "required_scopes", "expires_after_seconds",
      "allow_self_approval"] := by decide
  refine (record_agrees keeps plain rfl rfl).trans ?_
  simp only [approvalPolicy, List.forall₂_cons, List.Forall₂.nil, and_true, str_agrees,
    strings_agree, optional_nat_agrees, optional_bool_agrees]

theorem material_agrees (keeps : support.text.KeepsAscii)
    (leftWritten : first.material support = .ok left)
    (rightWritten : second.material support = .ok right) :
    left.Agrees support.text right ↔ first.composed support.text =
      second.composed support.text := by
  simp only [material, bind_ok, pure_ok] at leftWritten rightWritten
  obtain ⟨_, leftPolicy, rfl⟩ := leftWritten
  obtain ⟨_, rightPolicy, rfl⟩ := rightWritten
  have plain : PlainNames ["step_key", "kind", "selected_instance_id", "routing_slot_key",
    "template_id",
      "configuration_revision", "capability_id", "effect", "connector_family", "binding_id",
      "binding_configuration_revision", "request_schema_id", "result_schema_id",
        "result_schema_hash",
      "request_redaction_fields", "result_redaction_fields", "data_classification",
        "idempotency_support",
      "connector_timeout_seconds", "approval_policy", "runtime_policy"] := by decide
  refine (record_agrees keeps plain rfl rfl).trans ?_
  simp only [projection, composed, List.forall₂_cons, List.Forall₂.nil, and_true,
    str_agrees, int_agrees,
    Int.natCast_inj, strings_agree, optional_str_agrees, optional_nat_agrees, effect_agrees keeps,
    dataClassification_agrees keeps, approvalPolicy_agrees keeps,
    PlannedRuntimePolicy.material_agrees keeps leftPolicy rightPolicy, mk.injEq, and_assoc]

end EffectPlanStepHashMaterial

namespace EffectPlanSnapshot

variable {first second : EffectPlanSnapshot} {left right : ByteArray}

theorem hashMaterial_agrees (keeps : support.text.KeepsAscii)
    {firsts seconds : List EffectPlanStepHashMaterial}
    (leftWritten : firsts.mapM (·.material support) = .ok lefts)
    (rightWritten : seconds.mapM (·.material support) = .ok rights) :
    (PythonValue.sequence lefts).Agrees support.text (.sequence rights) ↔
      firsts.map (·.composed support.text) = seconds.map (·.composed support.text) := by
  have each : ∀ {first second : EffectPlanStepHashMaterial} {left right : PythonValue φ},
      first.material support = .ok left → second.material support = .ok right →
      (left.Agrees support.text right ↔ first.composed support.text =
        second.composed support.text) :=
    fun left right => EffectPlanStepHashMaterial.material_agrees keeps left right
  rw [sequence_agrees, mapM_agrees each leftWritten rightWritten, ← List.forall₂_eq_eq_eq,
    List.forall₂_map_left_iff, List.forall₂_map_right_iff]

theorem hashPreimage_eq_iff (keeps : support.text.KeepsAscii)
    (leftWritten : first.hashPreimage support = .ok left)
    (rightWritten : second.hashPreimage support = .ok right) :
      left = right ↔ first.Agrees support.text second := by
  simp only [hashPreimage, bind_ok] at leftWritten rightWritten
  obtain ⟨_, _, _, _, _, leftPolicy, _, leftSteps, leftBytes⟩ := leftWritten
  obtain ⟨_, _, _, _, _, rightPolicy, _, rightSteps, rightBytes⟩ := rightWritten
  have plain : PlainNames ["version", "workflow_id", "workflow_version", "workflow_definition_hash",
      "catalog_content_hash", "graph_hash", "routing_hash", "run_runtime_policy", "steps"] := by
        decide
  rw [preimage_eq_iff leftBytes rightBytes]
  refine (record_agrees keeps plain rfl rfl).trans ?_
  simp only [projection, List.forall₂_cons, List.Forall₂.nil, and_true, true_and,
    str_agrees, int_agrees,
    Int.natCast_inj, RunRuntimePolicy.material_agrees keeps leftPolicy rightPolicy,
    hashMaterial_agrees keeps leftSteps rightSteps]
  constructor
  · rintro ⟨workflowId, workflowVersion, definition, catalog, graph, routing, runPolicy, steps⟩
    exact ⟨workflowId, workflowVersion, definition, catalog, graph, routing, runPolicy, steps⟩
  · rintro ⟨workflowId, workflowVersion, definition, catalog, graph, routing, runPolicy, steps⟩
    exact ⟨workflowId, workflowVersion, definition, catalog, graph, routing, runPolicy, steps⟩

theorem relocated_hashPreimage (plan : EffectPlanSnapshot) (runId : String)
    (runtimeStepId : EffectPlannedStep → String) :
    (plan.relocated runId runtimeStepId).hashPreimage support = plan.hashPreimage support := by
  have same : (plan.relocated runId runtimeStepId).hashMaterial = plan.hashMaterial := by
    rw [hashMaterial, hashMaterial, relocated, List.map_map]
    rfl
  rw [hashPreimage, hashPreimage, same]
  rfl

end EffectPlanSnapshot

end

end MarketingAgents
