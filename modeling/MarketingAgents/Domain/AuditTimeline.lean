import MarketingAgents.Domain.Enums

namespace MarketingAgents

inductive AuditAggregateType where
  | maintenanceRun
  | campaignBrief
  | manualIngress
  | webhookIngress
  | manualIngressRejection
  | workItem
  | agentInstanceConfiguration
  | scheduleOccurrence
  | schedule
  | run
  | runAttempt
  | step
  | executionAttempt
  | artifact
  | externalAction
  | connectorReceipt
  | approvalRequest
  | runtimeControlDenial
deriving DecidableEq, Repr

/-- The registered event types of the audit timeline. -/
inductive AuditEventType where
  | retentionCompleted
  | campaignBriefCreated
  | ingressManualReceived
  | ingressRateLimited
  | ingressSchemaRejected
  | webhookSignatureValidated
  | webhookSignatureRejected
  | webhookReceived
  | webhookDuplicateSuppressed
  | webhookIdempotencyCollision
  | webhookSchemaRejected
  | workCreated
  | workDuplicateReturned
  | workIdempotencyCollision
  | instanceConfigurationChanged
  | scheduleOccurrenceCreated
  | scheduleMisfireSkipped
  | scheduleMisfireRunOnce
  | scheduleNextOccurrencePersisted
  | runReceived
  | runTransitioned
  | runTransitionRejected
  | runPlanRecorded
  | stepRecorded
  | stepTransitioned
  | attemptReserved
  | attemptCompleted
  | artifactPersisted
  | artifactTransformed
  | artifactPreviewed
  | actionProposed
  | actionAwaitingApproval
  | actionApproved
  | actionRejected
  | actionDispatchReserved
  | actionDispatchClaimed
  | actionCallStarted
  | actionRetryReleased
  | actionSucceeded
  | actionFailed
  | actionOutcomeUnknown
  | actionReceiptReconciled
  | actionCancelled
  | connectorReceiptCommitted
  | approvalRequested
  | approvalApproved
  | approvalRejected
  | approvalConsumed
  | approvalSuperseded
  | approvalExpired
  | approvalRenewed
  | runtimeControlDenied
deriving DecidableEq, Repr

namespace AuditEventType

def value : AuditEventType → String
  | retentionCompleted => "retention.completed"
  | campaignBriefCreated => "campaign_brief.created"
  | ingressManualReceived => "ingress.manual_received"
  | ingressRateLimited => "ingress.rate_limited"
  | ingressSchemaRejected => "ingress.schema_rejected"
  | webhookSignatureValidated => "webhook.signature_validated"
  | webhookSignatureRejected => "webhook.signature_rejected"
  | webhookReceived => "webhook.received"
  | webhookDuplicateSuppressed => "webhook.duplicate_suppressed"
  | webhookIdempotencyCollision => "webhook.idempotency_collision"
  | webhookSchemaRejected => "webhook.schema_rejected"
  | workCreated => "work.created"
  | workDuplicateReturned => "work.duplicate_returned"
  | workIdempotencyCollision => "work.idempotency_collision"
  | instanceConfigurationChanged => "instance.configuration_changed"
  | scheduleOccurrenceCreated => "schedule.occurrence_created"
  | scheduleMisfireSkipped => "schedule.misfire_skipped"
  | scheduleMisfireRunOnce => "schedule.misfire_run_once"
  | scheduleNextOccurrencePersisted => "schedule.next_occurrence_persisted"
  | runReceived => "run.received"
  | runTransitioned => "run.transitioned"
  | runTransitionRejected => "run.transition_rejected"
  | runPlanRecorded => "run.plan_recorded"
  | stepRecorded => "step.recorded"
  | stepTransitioned => "step.transitioned"
  | attemptReserved => "attempt.reserved"
  | attemptCompleted => "attempt.completed"
  | artifactPersisted => "artifact.persisted"
  | artifactTransformed => "artifact.transformed"
  | artifactPreviewed => "artifact.previewed"
  | actionProposed => "action.proposed"
  | actionAwaitingApproval => "action.awaiting_approval"
  | actionApproved => "action.approved"
  | actionRejected => "action.rejected"
  | actionDispatchReserved => "action.dispatch_reserved"
  | actionDispatchClaimed => "action.dispatch_claimed"
  | actionCallStarted => "action.call_started"
  | actionRetryReleased => "action.retry_released"
  | actionSucceeded => "action.succeeded"
  | actionFailed => "action.failed"
  | actionOutcomeUnknown => "action.outcome_unknown"
  | actionReceiptReconciled => "action.receipt_reconciled"
  | actionCancelled => "action.cancelled"
  | connectorReceiptCommitted => "connector.receipt_committed"
  | approvalRequested => "approval.requested"
  | approvalApproved => "approval.approved"
  | approvalRejected => "approval.rejected"
  | approvalConsumed => "approval.consumed"
  | approvalSuperseded => "approval.superseded"
  | approvalExpired => "approval.expired"
  | approvalRenewed => "approval.renewed"
  | runtimeControlDenied => "runtime.control_denied"

/-- The one aggregate that an event type is about. -/
def aggregateType : AuditEventType → AuditAggregateType
  | retentionCompleted => .maintenanceRun
  | campaignBriefCreated => .campaignBrief
  | ingressManualReceived | workDuplicateReturned | workIdempotencyCollision => .manualIngress
  | ingressRateLimited | webhookSignatureValidated | webhookSignatureRejected | webhookReceived |
    webhookDuplicateSuppressed | webhookIdempotencyCollision |
      webhookSchemaRejected => .webhookIngress
  | ingressSchemaRejected => .manualIngressRejection
  | workCreated => .workItem
  | instanceConfigurationChanged => .agentInstanceConfiguration
  | scheduleOccurrenceCreated | scheduleMisfireSkipped | scheduleMisfireRunOnce =>
    .scheduleOccurrence
  | scheduleNextOccurrencePersisted => .schedule
  | runReceived | runTransitioned | runPlanRecorded => .run
  | runTransitionRejected => .runAttempt
  | stepRecorded | stepTransitioned => .step
  | attemptReserved | attemptCompleted => .executionAttempt
  | artifactPersisted | artifactTransformed | artifactPreviewed => .artifact
  | actionProposed | actionAwaitingApproval | actionApproved | actionRejected |
    actionDispatchReserved |
    actionDispatchClaimed | actionCallStarted | actionRetryReleased | actionSucceeded |
      actionFailed |
    actionOutcomeUnknown | actionReceiptReconciled | actionCancelled => .externalAction
  | connectorReceiptCommitted => .connectorReceipt
  | approvalRequested | approvalApproved | approvalRejected | approvalConsumed |
    approvalSuperseded | approvalExpired | approvalRenewed => .approvalRequest
  | runtimeControlDenied => .runtimeControlDenial

end AuditEventType

/-- A sealed event before it has a place in a timeline. -/
structure AuditEventDraft where
  id : String
  runId : Option String
  scheduleId : Option String
  occurrenceId : Option String
  eventType : AuditEventType
  aggregateId : String
  safeMetadata : List (String × String)
  occurredAt : Time
  stepId : Option String
  actionId : Option String
  approvalRequestId : Option String
  attemptId : Option String
  mutationVersion : Option Nat
deriving DecidableEq

/-- An event with its place in the public feed and, for the events of a run, in
the timeline of that run. -/
structure AuditEventRecord where
  draft : AuditEventDraft
  runSequence : Option Nat
  feedSequence : Nat
deriving DecidableEq

/-- One page of the public feed below a fixed high watermark. -/
structure AuditFeedPage where
  highWatermark : Nat
  events : List AuditEventRecord
deriving DecidableEq

/-- What a caller of the public feed asks for. -/
structure AuditFeedFilter where
  runId : Option String
  stepId : Option String
  actionId : Option String
  approvalId : Option String
  eventType : Option String
  occurredAtFrom : Option Time
  occurredAtTo : Option Time
deriving DecidableEq

end MarketingAgents
