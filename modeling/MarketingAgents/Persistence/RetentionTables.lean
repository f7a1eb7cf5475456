import Mathlib.Data.List.Sort
import Mathlib.Data.String.Basic
import MarketingAgents.Domain.DataClassification
import MarketingAgents.Domain.Retention
import MarketingAgents.Library.Table

namespace MarketingAgents.Retention

open Library

/-! # The rows that retention reads and erases

A row keeps under `columns` whatever it has besides the columns that retention
uses, so that nothing of a row is out of sight when it is erased.
-/

/-- A stored object, its members in the order of their names. -/
abbrev Document := List (String × JsonValue)

structure WorkItemRecord where
  source : String
  eventId : String
  agentInstanceId : String
  triggerId : String
  workflowId : String
  mode : WorkMode
  campaignBriefId : Option String
  campaignBriefRevision : Option Nat
  configurationRevision : Nat
  admittedPayload : Document
  redactedInputProjection : Document
  inputSchemaId : String
  inputSchemaHash : String
  inputClassification : DataClassification
  inputProjectionCreatedAt : Time
  inputProjectionExpiresAt : Time
  inputProjectionIntegrityDigest : String
  inputDigest : String
  admissionDigest : String
  digestKeyVersion : String
  createdAt : Time
deriving DecidableEq

structure RunRecord where
  workItemId : String
  state : RunState
  version : Nat
  columns : Document
deriving DecidableEq

structure ExternalActionRecord where
  runId : String
  stepId : String
  capabilityId : String
  connectorFamily : String
  semanticActionHash : String
  actionHash : String
  idempotencyKey : String
  canonicalEnvelope : Document
  redactedProjection : Document
  state : ExternalActionState
  createdAt : Time
  version : Nat
  deliveryAttemptCount : Nat
  connectorReceiptId : Option String
  connectorSafeMetadata : Option Document
  columns : Document
deriving DecidableEq

structure ApprovalRequestRecord where
  runId : String
  actionId : String
  status : ApprovalStatus
  version : Nat
  requestedAt : Time
  redactedDestination : String
  redactedProjection : Document
  integrityDigest : String
  columns : Document
deriving DecidableEq

structure ApprovalDecisionRecord where
  requestId : String
  decision : ApprovalDecisionKind
  decidedAt : Time
  reason : Option String
  integrityDigest : String
  columns : Document
deriving DecidableEq

structure ArtifactRecord where
  runId : String
  stepId : String
  outputSchemaId : String
  outputSchemaVersion : String
  classification : DataClassification
  payload : Document
  payloadHash : String
  provenanceSnapshot : Document
  envelopeFingerprint : String
  createdAt : Time
  columns : Document
deriving DecidableEq

/-- An ordered lineage edge between two artifacts. -/
structure ArtifactParentRecord where
  artifactId : String
  parentArtifactId : String
  ordinal : Nat
deriving DecidableEq

structure ConnectorActionReceiptRecord where
  connectorBindingId : String
  idempotencyKey : String
  externalActionId : String
  actionHash : String
  status : String
  safeMetadata : Document
  createdAt : Time
  columns : Document
deriving DecidableEq

structure ExecutionAttemptRecord where
  runId : String
  stepId : String
  operationKey : String
  kind : AttemptKind
  attemptNumber : Nat
  reservedAt : Time
  redactedInput : Document
  outcome : Option AttemptOutcome
  completedAt : Option Time
  retryNotBefore : Option Time
  terminalReasonCode : Option String
  outputArtifactId : Option String
  version : Nat
  integrityDigest : String
  columns : Document
deriving DecidableEq

/-- What an audit event says, without the fingerprints taken of it. -/
structure AuditEventContent where
  feedSequence : Nat
  runSequence : Option Nat
  runId : Option String
  scheduleId : Option String
  eventType : AuditEventType
  safeMetadata : Document
  metadataExpiresAt : Time
  occurredAt : Time
  newState : Option String
  columns : Document
deriving DecidableEq

structure AuditEventRecord extends AuditEventContent where
  metadataFingerprint : String
  eventFingerprint : String
deriving DecidableEq

/-- The snapshot of a brief: a configuration from before briefs were admitted, an
admitted brief with its own expiry, or nothing. -/
inductive BriefSnapshot where
  | erased
  | seed (content : Document)
  | admitted (expiresAt : Time) (content : Document)
deriving DecidableEq

structure CampaignBriefRecord where
  title : String
  objective : String
  snapshot : BriefSnapshot
  snapshotHash : String
  createdAt : Time
deriving DecidableEq

/-- The expiry of one tracked detail and the witness of its erasure. -/
structure RetentionDetailRecord where
  category : RetentionCategory
  runId : Option String
  createdAt : Time
  expiresAt : Time
  purgedAt : Option Time
  skeleton : Option RetentionSkeleton
  integrityDigest : Option HexDigest
  expiry : createdAt < expiresAt
  purge : (purgedAt = none ∧ integrityDigest = none) ∨
    ((∃ at', purgedAt = some at' ∧ expiresAt ≤ at') ∧ integrityDigest.isSome)
deriving DecidableEq

/-- The limits of one occurrence, fixed by its first claim. -/
structure RetentionScope where
  cutoffAt : Time
  batchSize : Nat
deriving DecidableEq

inductive MaintenanceState where
  | running
  | completed
  | failed
deriving DecidableEq, Repr

structure MaintenanceLease where
  owner : String
  claimedAt : Time
  expiresAt : Time
deriving DecidableEq

structure MaintenanceRunRecord where
  occurrenceKey : String
  jobKind : String
  state : MaintenanceState
  startedAt : Time
  completedAt : Option Time
  lease : Option MaintenanceLease
  counts : Option RetentionCounts
  scope : RetentionScope
  version : Nat
deriving DecidableEq

/-- The tables of one database, as far as retention reads them. -/
structure RetentionDb where
  works : Table String WorkItemRecord
  runs : Table String RunRecord
  actions : Table String ExternalActionRecord
  approvals : Table String ApprovalRequestRecord
  decisions : Table String ApprovalDecisionRecord
  artifacts : Table String ArtifactRecord
  artifactParents : List ArtifactParentRecord
  receipts : Table String ConnectorActionReceiptRecord
  attempts : Table String ExecutionAttemptRecord
  workerClaims : Table String Time
  audits : Table String AuditEventRecord
  briefs : Table (String × Nat) CampaignBriefRecord
  schedules : Table String Bool
  details : Table (RetainedKind × String) RetentionDetailRecord
  maintenance : Table String MaintenanceRunRecord
deriving DecidableEq

end MarketingAgents.Retention
