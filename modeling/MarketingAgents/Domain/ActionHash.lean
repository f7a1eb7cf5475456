import MarketingAgents.Domain.PolicyHash
import MarketingAgents.Domain.Validation

namespace MarketingAgents

/-! # Exact and semantic action hashes -/

/-- Stable action meaning with run-local and proposal-local identity excluded. -/
structure SemanticExternalAction (φ : Type) where
  templateId : String
  instanceId : String
  actionType : String
  capabilityId : String
  connectorFamily : String
  bindingId : String
  destination : String
  payloadSchemaId : String
  minimizedPayload : PythonValue φ

/-- One exact action authorization envelope, including immutable plan scope. -/
structure ExactExternalAction (φ : Type) extends SemanticExternalAction φ where
  actionId : String
  authorizationSetId : String
  runId : String
  planHash : String
  proposalRevision : Nat
  stepId : String
  stepKey : String
  semanticActionHash : String

def actionHashDomain : ByteArray := "marketing-agents:external-action:v1\x00".toByteArray

def semanticActionHashDomain : ByteArray :=
  "marketing-agents:external-action-semantic:v1\x00".toByteArray

/-- A text field of a model, of at least one character. -/
def requireBounded (value fieldName : String) (maximum : Nat) : Except Rejection Unit :=
  require (1 ≤ value.toList.length ∧ value.toList.length ≤ maximum) "ValidationError" fieldName

section

variable {φ : Type} (support : HashSupport φ)

/-- A detached JSON object, suitable for canonical projections. -/
def plainJsonObject (value : PythonValue φ) : Except Rejection (PythonValue φ) := do
  let bytes ← canonicalJsonBytes support.text support.numbers value
  requireSome (jsonLoads support.numbers bytes) "ValueError" "invalid JSON"

namespace SemanticExternalAction

variable (action : SemanticExternalAction φ)

/-- The checks of the constructor, and the payload as it is frozen. -/
def validate : Except Rejection (SemanticExternalAction φ) := do
  requireBounded action.templateId "template_id" 200
  requireBounded action.instanceId "instance_id" 240
  requireBounded action.actionType "action_type" 120
  requireBounded action.capabilityId "capability_id" 200
  requireBounded action.connectorFamily "connector_family" 100
  requireBounded action.bindingId "binding_id" 200
  requireBounded action.destination "destination" 500
  require (support.text.strip action.destination = action.destination) "ValueError"
    "destination must already be normalized"
  requireBounded action.payloadSchemaId "payload_schema_id" 240
  let minimizedPayload ← frozenJsonMapping support.text support.numbers action.minimizedPayload
    "external action minimized payload"
  return { action with minimizedPayload }

def projection (payload : PythonValue φ) : List (String × PythonValue φ) :=
  [("canonicalization_version", .int 1),
    ("template_id", .str action.templateId),
    ("instance_id", .str action.instanceId),
    ("action_type", .str action.actionType),
    ("capability_id", .str action.capabilityId),
    ("connector_family", .str action.connectorFamily),
    ("binding_id", .str action.bindingId),
    ("destination", .str action.destination),
    ("payload_schema_id", .str action.payloadSchemaId),
    ("minimized_payload", payload)]

def hashPreimage : Except Rejection ByteArray := do
  let payload ← plainJsonObject support action.minimizedPayload
  support.preimage semanticActionHashDomain (.record (action.projection payload))

/-- Hash stable action meaning without random or run-local identifiers. -/
def semanticActionHash : Except Rejection String := support.sha256 <$> action.hashPreimage support

/-- Actions of one meaning, up to composition. -/
structure Agrees (text : TextSupport) (first second : SemanticExternalAction φ) : Prop where
  templateId : text.nfc first.templateId = text.nfc second.templateId
  instanceId : text.nfc first.instanceId = text.nfc second.instanceId
  actionType : text.nfc first.actionType = text.nfc second.actionType
  capabilityId : text.nfc first.capabilityId = text.nfc second.capabilityId
  connectorFamily : text.nfc first.connectorFamily = text.nfc second.connectorFamily
  bindingId : text.nfc first.bindingId = text.nfc second.bindingId
  destination : text.nfc first.destination = text.nfc second.destination
  payloadSchemaId : text.nfc first.payloadSchemaId = text.nfc second.payloadSchemaId
  minimizedPayload : first.minimizedPayload.Agrees text second.minimizedPayload

end SemanticExternalAction

namespace ExactExternalAction

variable (action : ExactExternalAction φ)

/-- The action without its identities, as the constructor of its meaning takes it. -/
def semanticAction : Except Rejection (SemanticExternalAction φ) := do
  let minimizedPayload ← plainJsonObject support action.minimizedPayload
  SemanticExternalAction.validate support { action.toSemanticExternalAction with minimizedPayload }

def validate : Except Rejection (ExactExternalAction φ) := do
  requireBounded action.actionId "action_id" 200
  requireBounded action.authorizationSetId "authorization_set_id" 200
  requireBounded action.runId "run_id" 200
  require (digestText action.planHash.toList) "ValidationError" "plan_hash"
  require (1 ≤ action.proposalRevision) "ValidationError" "proposal_revision"
  requireBounded action.stepId "step_id" 200
  requireBounded action.stepKey "step_key" 240
  require (digestText action.semanticActionHash.toList) "ValidationError" "semantic_action_hash"
  let meaning ← action.toSemanticExternalAction.validate support
  let frozen := { action with toSemanticExternalAction := meaning }
  let semantic ← frozen.semanticAction support
  let current ← semantic.semanticActionHash support
  require (action.semanticActionHash = current) "ValueError" "semantic action hash is not current"
  return frozen

def authorizationProjection (payload : PythonValue φ) : List (String × PythonValue φ) :=
  [("canonicalization_version", .int 1),
    ("action_id", .str action.actionId),
    ("authorization_set_id", .str action.authorizationSetId),
    ("run_id", .str action.runId),
    ("plan_hash", .str action.planHash),
    ("proposal_revision", .int action.proposalRevision),
    ("step_id", .str action.stepId),
    ("step_key", .str action.stepKey),
    ("template_id", .str action.templateId),
    ("instance_id", .str action.instanceId),
    ("action_type", .str action.actionType),
    ("capability_id", .str action.capabilityId),
    ("connector_family", .str action.connectorFamily),
    ("binding_id", .str action.bindingId),
    ("destination", .str action.destination),
    ("payload_schema_id", .str action.payloadSchemaId),
    ("minimized_payload", payload),
    ("semantic_action_hash", .str action.semanticActionHash)]

def authorizationPreimage : Except Rejection ByteArray := do
  let payload ← plainJsonObject support action.minimizedPayload
  support.preimage actionHashDomain (.record (action.authorizationProjection payload))

/-- Hash the complete identity-bound action. -/
def canonicalActionHash : Except Rejection String :=
  support.sha256 <$> action.authorizationPreimage support

/-- Actions that are equal up to composition. -/
structure Agrees (text : TextSupport) (first second : ExactExternalAction φ) : Prop where
  actionId : text.nfc first.actionId = text.nfc second.actionId
  authorizationSetId : text.nfc first.authorizationSetId = text.nfc second.authorizationSetId
  runId : text.nfc first.runId = text.nfc second.runId
  planHash : text.nfc first.planHash = text.nfc second.planHash
  proposalRevision : first.proposalRevision = second.proposalRevision
  stepId : text.nfc first.stepId = text.nfc second.stepId
  stepKey : text.nfc first.stepKey = text.nfc second.stepKey
  meaning : first.toSemanticExternalAction.Agrees text second.toSemanticExternalAction
  semanticActionHash : text.nfc first.semanticActionHash = text.nfc second.semanticActionHash

end ExactExternalAction

end

section

variable {φ : Type} {support : HashSupport φ} {left right : ByteArray}

theorem plainJsonObject_agrees (firstRead : plainJsonObject support first = .ok firstPlain)
    (secondRead : plainJsonObject support second = .ok secondPlain) :
    firstPlain.Agrees support.text secondPlain ↔ first.Agrees support.text second := by
  simp only [plainJsonObject, bind_ok, requireSome_ok] at firstRead secondRead
  obtain ⟨firstBytes, firstWritten, firstLoaded⟩ := firstRead
  obtain ⟨secondBytes, secondWritten, secondLoaded⟩ := secondRead
  obtain ⟨_, firstAgain, firstRewritten⟩ := canonicalJsonBytes_decoded firstWritten
  obtain ⟨_, secondAgain, secondRewritten⟩ := canonicalJsonBytes_decoded secondWritten
  obtain rfl := Option.mem_unique firstAgain firstLoaded
  obtain rfl := Option.mem_unique secondAgain secondLoaded
  exact (canonicalJsonBytes_eq_iff firstRewritten secondRewritten).symm.trans
    (canonicalJsonBytes_eq_iff firstWritten secondWritten)

theorem SemanticExternalAction.hashPreimage_eq_iff (keeps : support.text.KeepsAscii)
    {first second : SemanticExternalAction φ} (leftWritten : first.hashPreimage support = .ok left)
    (rightWritten : second.hashPreimage support = .ok right) :
      left = right ↔ first.Agrees support.text second := by
  simp only [hashPreimage, bind_ok] at leftWritten rightWritten
  obtain ⟨_, leftPayload, leftBytes⟩ := leftWritten
  obtain ⟨_, rightPayload, rightBytes⟩ := rightWritten
  have plain : PlainNames ["canonicalization_version", "template_id", "instance_id", "action_type",
    "capability_id",
      "connector_family", "binding_id", "destination", "payload_schema_id",
          "minimized_payload"] := by
    decide
  rw [preimage_eq_iff leftBytes rightBytes]
  refine (record_agrees keeps plain rfl rfl).trans ?_
  simp only [projection, List.forall₂_cons, List.Forall₂.nil, and_true, true_and,
    str_agrees, int_agrees, plainJsonObject_agrees leftPayload rightPayload]
  constructor
  · rintro ⟨templateId, instanceId, actionType, capabilityId, family, bindingId, destination,
      schemaId, payload⟩
    exact ⟨templateId, instanceId, actionType, capabilityId, family, bindingId, destination,
      schemaId, payload⟩
  · rintro ⟨templateId, instanceId, actionType, capabilityId, family, bindingId, destination,
      schemaId, payload⟩
    exact ⟨templateId, instanceId, actionType, capabilityId, family, bindingId, destination,
      schemaId, payload⟩

theorem ExactExternalAction.authorizationPreimage_eq_iff (keeps : support.text.KeepsAscii)
    {first second : ExactExternalAction φ}
    (leftWritten : first.authorizationPreimage support = .ok left)
    (rightWritten : second.authorizationPreimage support = .ok right) :
    left = right ↔ first.Agrees support.text second := by
  simp only [authorizationPreimage, bind_ok] at leftWritten rightWritten
  obtain ⟨_, leftPayload, leftBytes⟩ := leftWritten
  obtain ⟨_, rightPayload, rightBytes⟩ := rightWritten
  have plain : PlainNames ["canonicalization_version", "action_id", "authorization_set_id",
    "run_id", "plan_hash",
      "proposal_revision", "step_id", "step_key", "template_id", "instance_id", "action_type",
        "capability_id",
      "connector_family", "binding_id", "destination", "payload_schema_id", "minimized_payload",
      "semantic_action_hash"] := by
    decide
  rw [preimage_eq_iff leftBytes rightBytes]
  refine (record_agrees keeps plain rfl rfl).trans ?_
  simp only [authorizationProjection, List.forall₂_cons, List.Forall₂.nil, and_true, true_and,
    str_agrees, int_agrees, Int.natCast_inj, plainJsonObject_agrees leftPayload rightPayload]
  constructor
  · rintro ⟨actionId, setId, runId, planHash, revision, stepId, stepKey, templateId,
      instanceId, actionType, capabilityId, family, bindingId, destination, schemaId, payload, hash⟩
    exact ⟨actionId, setId, runId, planHash, revision, stepId, stepKey,
      ⟨templateId, instanceId, actionType, capabilityId, family, bindingId, destination, schemaId,
        payload⟩, hash⟩
  · rintro ⟨actionId, setId, runId, planHash, revision, stepId, stepKey,
      ⟨templateId, instanceId, actionType, capabilityId, family, bindingId, destination, schemaId,
        payload⟩, hash⟩
    exact ⟨actionId, setId, runId, planHash, revision, stepId, stepKey, templateId,
      instanceId, actionType, capabilityId, family, bindingId, destination, schemaId, payload, hash⟩

end

end MarketingAgents
