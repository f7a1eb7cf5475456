import MarketingAgents.Persistence.RetentionRepository

namespace MarketingAgents.Retention

open Library

/-! # Erasing one detail

Each kind of record is read in full before its content goes, and leaves the
public values and the binding of its skeleton behind.
-/

/-- The metadata that an event of a type has to carry. -/
def requiredMetadata : AuditEventType → List String
  | .retentionCompleted =>
      ["admitted_payload", "approval_detail", "artifact_detail", "audit_metadata",
        "connector_receipt_detail", "external_action_payload"]
  | .campaignBriefCreated => ["new_revision"]
  | .ingressManualReceived | .workCreated | .workDuplicateReturned | .workIdempotencyCollision =>
      ["configuration_revision", "instance_id", "manual_attempt_id", "mode", "receipt_disposition",
        "trigger_id", "work_item_id", "workflow_id"]
  | .ingressSchemaRejected =>
      ["configuration_revision", "instance_id", "manual_attempt_id", "mode", "rejection_code",
        "trigger_id", "workflow_id"]
  | .ingressRateLimited => ["retry_after_seconds", "source", "trigger_id", "webhook_attempt_id"]
  | .webhookSignatureValidated | .webhookSignatureRejected =>
    ["source", "trigger_id", "webhook_attempt_id"]
  | .webhookReceived | .webhookDuplicateSuppressed | .webhookIdempotencyCollision =>
      ["receipt_disposition", "source", "target_count", "trigger_id", "webhook_attempt_id",
        "webhook_receipt_id"]
  | .webhookSchemaRejected => ["rejection_code", "source", "trigger_id", "webhook_attempt_id"]
  | .instanceConfigurationChanged =>
      ["new_configuration", "new_revision", "previous_configuration", "previous_revision"]
  | .scheduleOccurrenceCreated =>
      ["claim_fingerprint", "next_run_at_utc", "recurrence_version", "scheduled_for_utc",
        "work_admitted"]
  | .scheduleMisfireSkipped | .scheduleMisfireRunOnce =>
      ["claim_fingerprint", "first_missed_at_utc", "last_missed_at_utc", "missed_count",
        "next_run_at_utc", "recurrence_version", "scheduled_for_utc", "work_admitted"]
  | .scheduleNextOccurrencePersisted =>
      ["claim_fingerprint", "disposition", "last_scheduled_at_utc", "next_run_at_utc",
        "occurrence_id", "previous_next_run_at_utc"]
  | .runReceived => ["catalog_content_hash", "command"]
  | .runTransitioned | .runTransitionRejected => ["command"]
  | .runPlanRecorded =>
      ["catalog_content_hash", "command", "graph_hash", "plan_hash", "routing_hash", "step_count",
        "workflow_definition_hash", "workflow_id", "workflow_version"]
  | .stepRecorded =>
      ["catalog_content_hash", "configuration_revision", "graph_hash", "ordinal", "plan_hash",
        "routing_hash", "step_count", "step_kind", "template_id", "terminal_result",
        "workflow_definition_hash", "workflow_id", "workflow_version"]
  | .stepTransitioned =>
      ["command", "configuration_revision", "ordinal", "step_kind", "template_id",
        "terminal_result"]
  | .attemptReserved =>
      ["attempt_kind", "attempt_number", "input_classification", "input_schema_id", "operation_key"]
  | .attemptCompleted => ["attempt_kind", "attempt_number", "attempt_outcome", "operation_key"]
  | .artifactPersisted | .artifactTransformed | .artifactPreviewed =>
      ["data_classification", "output_schema_hash", "output_schema_id", "output_schema_version"]
  | .actionProposed | .actionAwaitingApproval | .actionApproved | .actionRejected |
    .actionDispatchClaimed | .actionCallStarted =>
      ["idempotency_support"]
  | .actionDispatchReserved =>
    ["approval_set_id", "approval_use_id", "idempotency_support", "reservation_id"]
  | .actionRetryReleased | .actionFailed | .actionOutcomeUnknown =>
    ["conclusion", "idempotency_support"]
  | .actionSucceeded | .actionReceiptReconciled =>
    ["conclusion", "connector_status", "idempotency_support"]
  | .actionCancelled =>
    ["approval_set_id", "approval_status", "closure_reason", "idempotency_support"]
  | .connectorReceiptCommitted => ["connector_status"]
  | .approvalRequested | .approvalExpired =>
      ["action_state", "action_version", "generation", "policy_id", "proposal_revision", "status"]
  | .approvalApproved | .approvalRejected =>
      ["action_state", "action_version", "decision", "generation", "policy_id", "proposal_revision",
        "status"]
  | .approvalConsumed =>
      ["action_state", "action_version", "approval_set_id", "approval_use_id",
        "generation", "policy_id", "proposal_revision", "reservation_id", "status"]
  | .approvalSuperseded =>
      ["action_state", "action_version", "approval_set_id", "generation", "policy_id",
        "proposal_revision", "status", "supersession_reason"]
  | .approvalRenewed =>
      ["action_state", "action_version", "generation", "policy_id", "proposal_revision",
        "replacement_request_id", "status"]
  | .runtimeControlDenied => ["denial_code", "operation_key"]

/-- How the constructors of the records call the identifier that they check. -/
def identityName : RetainedKind → String
  | .work | .approval => "id"
  | .action => "external action ID"
  | .artifact => "artifact ID"
  | .receipt => "connector receipt ID"
  | .attempt => "attempt ID"
  | .audit => "audit event ID"
  | .brief => "campaign brief ID"

/-- The tables without a content, what the skeleton keeps of it and, for the
records that are not tracked under a run, the run that they belong to. -/
structure Erasure where
  db : RetentionDb
  run : Option String
  publicValues : List (String × SkeletonValue)
  binding : List (String × SkeletonValue)

def conflict {α : Type} (code : String) : Except Rejection α := reject "RetentionConflict" code

def requireSource {α : Type} (row : Option α) : Except Rejection α :=
  requireSome row "RetentionConflict" "retention_source_missing"

def WorkItemRecord.expire (row : WorkItemRecord) : WorkItemRecord :=
  { row with admittedPayload := [], redactedInputProjection := [] }

def ExternalActionRecord.expire (row : ExternalActionRecord) : ExternalActionRecord :=
  { row with canonicalEnvelope := [], redactedProjection := [] }

def ExternalActionRecord.expireResult (row : ExternalActionRecord) : ExternalActionRecord :=
  { row with connectorSafeMetadata := some [] }

def ApprovalRequestRecord.expire (row : ApprovalRequestRecord) : ApprovalRequestRecord :=
  { row with redactedProjection := [], redactedDestination := "[expired]" }

def ApprovalDecisionRecord.expire (row : ApprovalDecisionRecord) : ApprovalDecisionRecord :=
  { row with reason := none }

def ArtifactRecord.expire (row : ArtifactRecord) : ArtifactRecord :=
  { row with payload := [], provenanceSnapshot := [] }

def ConnectorActionReceiptRecord.expire (row : ConnectorActionReceiptRecord) :
    ConnectorActionReceiptRecord :=
  { row with safeMetadata := [] }

def ExecutionAttemptRecord.expire (row : ExecutionAttemptRecord) : ExecutionAttemptRecord :=
  { row with redactedInput := [] }

def CampaignBriefRecord.expire (row : CampaignBriefRecord) : CampaignBriefRecord :=
  { row with title := "[expired]", objective := "[expired]", snapshot := .erased }

/-- Immutable work identity and non-reversible dedupe witnesses, never its body. -/
def workBinding (identity : String) (row : WorkItemRecord) : List (String × SkeletonValue) :=
  [("id", .text identity), ("source", .text row.source), ("event_id", .text row.eventId),
    ("agent_instance_id", .text row.agentInstanceId), ("trigger_id", .text row.triggerId),
    ("workflow_id", .text row.workflowId), ("mode", .text row.mode.value),
    ("campaign_brief_id", .optional row.campaignBriefId),
    ("campaign_brief_revision", (row.campaignBriefRevision.map SkeletonValue.number).getD .null),
    ("configuration_revision", .number row.configurationRevision),
    ("input_schema_id", .text row.inputSchemaId), ("input_schema_hash", .text row.inputSchemaHash),
    ("input_classification", .text row.inputClassification.value),
      ("input_digest", .text row.inputDigest),
    ("admission_digest", .text row.admissionDigest),
      ("digest_key_version", .text row.digestKeyVersion),
    ("input_projection_integrity_digest", .text row.inputProjectionIntegrityDigest),
    ("created_at", .instant row.createdAt),
    ("input_projection_created_at", .instant row.inputProjectionCreatedAt),
    ("input_projection_expires_at", .instant row.inputProjectionExpiresAt)]

def workPublicNames : List String :=
  ["id", "workflow_id", "trigger_id", "mode", "input_schema_id", "input_classification"]

section

variable (ports : RetentionPorts) (db : RetentionDb) (identity : String)

def eraseWork : Except Rejection Erasure := do
  let row ← requireSource (db.works.get? identity)
  requireId identity (identityName .work)
  ports.readWork identity row
  require (row.inputProjectionIntegrityDigest = ports.projectionIntegrityDigest identity row)
    "RetentionConflict" "retention_source_corrupt"
  let binding := workBinding identity row ++
    [("projection_digest", .text (ports.payloadDigest row.redactedInputProjection))]
  match (db.runs.keysWhere fun _ run => run.workItemId = identity) with
  | [runId] =>
      return {
        db := { db with works := db.works.set identity row.expire }
        run := some runId
        publicValues := binding.filter fun entry => entry.1 ∈ workPublicNames
        binding }
  | [] => reject "NoResultFound" "No row was found when one was required"
  | _ => reject "MultipleResultsFound" "Multiple rows were found when exactly one was required"

def eraseAction : Except Rejection Erasure := do
  let action ← requireSource (db.actions.get? identity)
  requireId identity (identityName .action)
  ports.readAction identity action
  return {
    db := { db with actions := db.actions.set identity action.expire }
    run := none
    publicValues := [("id", .text identity), ("step_id", .text action.stepId),
      ("state", .text action.state.value), ("capability_id", .text action.capabilityId),
      ("connector_family", .text action.connectorFamily),
      ("delivery_attempt_count", .number action.deliveryAttemptCount)]
    binding := [("action_hash", .text action.actionHash),
      ("semantic_action_hash", .text action.semanticActionHash),
      ("idempotency_key", .text action.idempotencyKey)] }

/-- The tables without the reason of a decision, and what the skeleton keeps of it. -/
def eraseDecision (decisionId : String) (decision : ApprovalDecisionRecord) :
    Except Rejection Erasure := do
  ports.readDecision decisionId decision
  return {
    db := { db with decisions := db.decisions.set decisionId decision.expire }
    run := none
    publicValues := [("decision", .text decision.decision.value), ("decision_id", .text decisionId),
      ("decided_at", .instant decision.decidedAt)]
    binding := [("decision_integrity_digest", .text decision.integrityDigest)] }

/-- The decision of a request, of which there is at most one. -/
def eraseDecisionOf : Except Rejection Erasure :=
  match db.decisions.entries.filter fun entry => entry.2.requestId = identity with
  | [] => .ok { db, run := none, publicValues := [], binding := [] }
  | [(decisionId, decision)] => eraseDecision ports db decisionId decision
  | _ => reject "MultipleResultsFound" "Multiple rows were found when one or none was required"

def eraseApproval : Except Rejection Erasure := do
  let approval ← requireSource (db.approvals.get? identity)
  requireId identity (identityName .approval)
  ports.verifyRequest identity approval
  let decided ← eraseDecisionOf ports db identity
  return {
    db := { decided.db with approvals := decided.db.approvals.set identity approval.expire }
    run := none
    publicValues := decided.publicValues ++ [("id", .text identity),
      ("action_id", .text approval.actionId),
      ("status", .text approval.status.value), ("requested_at", .instant approval.requestedAt)]
    binding := decided.binding ++ [("request_integrity_digest", .text approval.integrityDigest)] }

def RetentionDb.parentIds : List String :=
  ((db.artifactParents.filter fun parent => parent.artifactId = identity).insertionSort
    fun left right => left.ordinal ≤ right.ordinal).map (·.parentArtifactId)

def eraseArtifact : Except Rejection Erasure := do
  let artifact ← requireSource (db.artifacts.get? identity)
  requireId identity (identityName .artifact)
  let provenance ← ports.readArtifact identity artifact (db.parentIds identity)
  return {
    db := { db with artifacts := db.artifacts.set identity artifact.expire }
    run := none
    publicValues := [("id", .text identity), ("step_id", .text artifact.stepId),
      ("output_schema_id", .text artifact.outputSchemaId),
      ("output_schema_version", .text artifact.outputSchemaVersion),
      ("classification", .text artifact.classification.value),
      ("parent_artifact_ids", .texts (db.parentIds identity)),
      ("workflow_id", .text provenance.workflowId), ("template_id", .text provenance.templateId)]
    binding := [("envelope_fingerprint", .text artifact.envelopeFingerprint),
      ("payload_hash", .text artifact.payloadHash)] }

/-- The action of a receipt, which has to hold the same result. -/
def receiptAction (receipt : ConnectorActionReceiptRecord) :
    Except Rejection ExternalActionRecord := do
  let action ← requireSome (db.actions.get? receipt.externalActionId) "RetentionConflict"
    "retention_receipt_corrupt"
  require (action.connectorReceiptId = some identity ∧
    action.connectorSafeMetadata = some receipt.safeMetadata)
    "RetentionConflict" "retention_receipt_corrupt"
  return action

def eraseReceipt : Except Rejection Erasure := do
  let receipt ← requireSome (db.receipts.get? identity) "NoResultFound"
    "No row was found when one was required"
  requireId identity (identityName .receipt)
  ports.readReceipt identity receipt
  let action ← receiptAction db identity receipt
  return {
    db := { db with
      receipts := db.receipts.set identity receipt.expire
      actions := db.actions.set receipt.externalActionId action.expireResult }
    run := some action.runId
    publicValues := [("receipt_id", .text identity), ("action_id", .text receipt.externalActionId),
      ("status", .text receipt.status)]
    binding := [("action_hash", .text receipt.actionHash),
      ("idempotency_key", .text receipt.idempotencyKey),
      ("connector_binding_id", .text receipt.connectorBindingId)] }

def eraseAttempt : Except Rejection Erasure := do
  let attempt ← requireSource (db.attempts.get? identity)
  requireId identity (identityName .attempt)
  ports.readAttempt identity attempt
  return {
    db := { db with attempts := db.attempts.set identity attempt.expire }
    run := none
    publicValues := [("id", .text identity), ("step_id", .text attempt.stepId),
      ("kind", .text attempt.kind.value),
      ("outcome", .optional (attempt.outcome.map AttemptOutcome.value)),
      ("attempt_number", .number attempt.attemptNumber),
      ("output_artifact_id", .optional attempt.outputArtifactId)]
    binding := [("integrity_digest", .text attempt.integrityDigest)] }

/-- Hydrate an event: it has a place in the feed and its fingerprints match its content. -/
def readAudit (audit : AuditEventRecord) : Except Rejection Unit := do
  require (1 ≤ audit.feedSequence) "audit_feed_sequence_corrupt"
    "persisted audit event has no valid public feed sequence"
  requireId identity (identityName .audit)
  let fingerprints ← ports.issueDraft identity audit.toAuditEventContent
  require (fingerprints.metadata = audit.metadataFingerprint) "audit_metadata_corrupt"
    "persisted audit metadata fingerprint does not match"
  require (fingerprints.event = audit.eventFingerprint) "audit_event_corrupt"
    "persisted audit event fingerprint does not match"

/-- The metadata that an event keeps.  A completion that did not succeed keeps its
error code, which the validation of events asks of it. -/
def AuditEventContent.keptMetadata (content : AuditEventContent) : Document :=
  let required := requiredMetadata content.eventType ++
    if content.eventType = .attemptCompleted ∧ content.newState ≠ some "succeeded" then
      ["safe_error_code"]
    else []
  content.safeMetadata.filter fun entry => entry.1 ∈ required

/-- Privileged retention seam: preserve every required semantic event field. -/
def expireOptionalMetadata (audit : AuditEventRecord) (now : Time) :
    Except Rejection AuditEventRecord := do
  readAudit ports identity audit
  require (audit.metadataExpiresAt ≤ now) "ValueError" "audit metadata has not expired"
  let content := { audit.toAuditEventContent with safeMetadata := audit.keptMetadata }
  let fingerprints ← ports.issueDraft identity content
  let retained := {
    toAuditEventContent := content
    metadataFingerprint := fingerprints.metadata
    eventFingerprint := fingerprints.event }
  readAudit ports identity retained
  return retained

def eraseAudit (now : Time) : Except Rejection Erasure := do
  let audit ← requireSome (db.audits.get? identity) "NoResultFound"
    "No row was found when one was required"
  readAudit ports identity audit
  let retained ← expireOptionalMetadata ports identity audit now
  return {
    db := { db with audits := db.audits.set identity retained }
    run := none
    publicValues := [("event_id", .text identity), ("event_type", .text audit.eventType.value),
      ("feed_sequence", .number audit.feedSequence),
      ("run_sequence", (audit.runSequence.map SkeletonValue.number).getD .null)]
    binding := [("event_fingerprint", .text audit.eventFingerprint),
      ("metadata_fingerprint", .text audit.metadataFingerprint)] }

def eraseBrief : Except Rejection Erasure := do
  let brief ← requireSource (db.briefs.get? (identity, 1))
  requireId identity (identityName .brief)
  let snapshot ← ports.hydrateBrief identity brief
  require (brief.snapshotHash = ports.snapshotDigest identity brief) "RetentionConflict"
    "retention_source_corrupt"
  return {
    db := { db with briefs := db.briefs.set (identity, 1) brief.expire }
    run := none
    publicValues := [("id", .text identity), ("revision", .number 1),
      ("classification", .text snapshot.classification.value)]
    binding := [("snapshot_hash", .text brief.snapshotHash),
      ("body_digest", .text snapshot.bodyDigest), ("key_version", .text snapshot.keyVersion)] }

def eraseContent (now : Time) : RetainedKind → Except Rejection Erasure
  | .work => eraseWork ports db identity
  | .action => eraseAction ports db identity
  | .approval => eraseApproval ports db identity
  | .artifact => eraseArtifact ports db identity
  | .receipt => eraseReceipt ports db identity
  | .attempt => eraseAttempt ports db identity
  | .audit => eraseAudit ports db identity now
  | .brief => eraseBrief ports db identity

end

def retentionMaterial (key : RetainedKind × String) (detail : RetentionDetailRecord) :
    RetentionMaterial where
  category := detail.category
  recordKind := key.1
  recordId := key.2
  runId := detail.runId
  createdAt := detail.createdAt
  expiresAt := detail.expiresAt
  purgedAt := detail.purgedAt
  skeleton := detail.skeleton

/-- A detail with the witness of its erasure. -/
def RetentionDetailRecord.purged (ports : RetentionPorts) (key : RetainedKind × String)
    (detail : RetentionDetailRecord) (erasure : Erasure) (now : Time) :
      Except Rejection RetentionDetailRecord :=
  if expired : detail.expiresAt ≤ now then
    let runId := erasure.run.or detail.runId
    let skeleton := some ⟨erasure.publicValues, erasure.binding⟩
    .ok { detail with
      runId
      skeleton
      purgedAt := some now
      integrityDigest := some (ports.retentionDigest {
        category := detail.category
        recordKind := key.1
        recordId := key.2
        runId
        createdAt := detail.createdAt
        expiresAt := detail.expiresAt
        purgedAt := some now
        skeleton })
      purge := .inr ⟨⟨now, rfl, expired⟩, rfl⟩ }
  else reject "IntegrityError" "ck_retention_details_purge"

def erase (ports : RetentionPorts) (now : Time) (db : RetentionDb)
    (candidate : (RetainedKind × String) × RetentionDetailRecord) :
      Except Rejection RetentionDb := do
  let erasure ← eraseContent ports db candidate.1.2 now candidate.1.1
  let detail ← candidate.2.purged ports candidate.1 erasure now
  return { erasure.db with details := erasure.db.details.set candidate.1 detail }

/-- Read the witness of an erased detail. -/
def verifyRetained (ports : RetentionPorts) (key : RetainedKind × String)
    (detail : RetentionDetailRecord) : Except Rejection RetainedDetail :=
  match detail.purgedAt, detail.integrityDigest with
  | some purgedAt, some digest => do
      require (digest = ports.retentionDigest (retentionMaterial key detail)) "ValueError"
        "retained detail integrity mismatch"
      let skeleton ← requireSome detail.skeleton "ValueError" "retained detail shape is invalid"
      if identified : requireId key.2 "retained record ID" = .ok () then
        if ordered : detail.createdAt < detail.expiresAt ∧ detail.expiresAt ≤ purgedAt then
          return {
            category := detail.category
            recordKind := key.1
            recordId := key.2
            createdAt := detail.createdAt
            expiresAt := detail.expiresAt
            purgedAt
            runId := detail.runId
            metadata := skeleton.publicValues
            identified
            ordered }
        else reject "ValueError" "retained detail timestamps are inconsistent"
      else reject "ValueError" "retained record ID must be a stable nonempty identifier"
  | _, _ => reject "ValueError" "retained detail is not erased"

end MarketingAgents.Retention
