import MarketingAgents.Library.Machine
import MarketingAgents.Persistence.RetentionErasure

namespace MarketingAgents.Retention

open Library

/-! # Claims and executions

An occurrence is claimed under a lease and executed by the holder of the lease.
What raises before the commit leaves the tables alone; what raises after it
leaves the committed tables.
-/

structure Committed (α : Type) where
  db : RetentionDb
  result : Except Rejection α

/-- The tables after a transaction that may have been rolled back. -/
def settled {α : Type} (db : RetentionDb) : Except Rejection (Committed α) → RetentionDb
  | .ok committed => committed.db
  | .error _ => db

inductive ClaimOutcome where
  | unavailable
  | claimed (claim : RetentionClaim)
  | completed (result : RetentionResult)
deriving DecidableEq

def jobKind : String := "retention.v1"

def jobId (ports : RetentionPorts) (occurrenceKey : String) : String :=
  "maintenance." ++ ports.occurrenceDigest occurrenceKey

section

variable (ports : RetentionPorts) (db : RetentionDb) (occurrenceKey owner : String) (now : Time)
variable (leaseSeconds batchSize : Nat)

def firstRecord : MaintenanceRunRecord where
  occurrenceKey
  jobKind
  state := .running
  startedAt := now
  completedAt := none
  lease := some ⟨owner, now, now + seconds leaseSeconds⟩
  counts := none
  scope := ⟨now, batchSize⟩
  version := 1

/-- The first claim of an occurrence.  Another row of the same key takes it away. -/
def claimFirst : Except Rejection (Committed ClaimOutcome) := do
  let claim ← RetentionClaim.build (jobId ports occurrenceKey) occurrenceKey owner 1 now
    (now + seconds leaseSeconds) now batchSize
  if db.maintenance.rows.any (·.occurrenceKey = occurrenceKey) then return ⟨db, .ok .unavailable⟩
  else
    match db.maintenance.insert? (jobId ports occurrenceKey)
      (firstRecord occurrenceKey owner now leaseSeconds batchSize) with
    | none => return ⟨db, .ok .unavailable⟩
    | some maintenance => return ⟨{ db with maintenance }, .ok (.claimed claim)⟩

/-- The stored result of a completed occurrence. -/
def replayCompleted (record : MaintenanceRunRecord) : Except Rejection ClaimOutcome := do
  let completedAt ← requireSome record.completedAt "RetentionConflict"
    "retention_completion_corrupt"
  let counts ← requireSome record.counts "ValueError" "retention result counts are invalid"
  let result ← RetentionResult.build occurrenceKey counts completedAt true
  return .completed result

/-- Take over the lease of a worker that did not finish in time. -/
def takeOver (record : MaintenanceRunRecord) : Committed ClaimOutcome where
  db := { db with maintenance := db.maintenance.set (jobId ports occurrenceKey) { record with
    version := record.version + 1
    lease := some ⟨owner, now, now + seconds leaseSeconds⟩ } }
  result := do
    let claim ← RetentionClaim.build (jobId ports occurrenceKey) occurrenceKey owner
      (record.version + 1) now (now + seconds leaseSeconds) record.scope.cutoffAt batchSize
    return .claimed claim

def claimAgain (record : MaintenanceRunRecord) : Except Rejection (Committed ClaimOutcome) := do
  require (record.jobKind = jobKind ∧ record.occurrenceKey = occurrenceKey) "RetentionConflict"
    "retention_occurrence_conflict"
  require (record.scope.batchSize = batchSize) "RetentionConflict" "retention_scope_conflict"
  if record.state = .completed then
    let outcome ← replayCompleted occurrenceKey record
    return ⟨db, .ok outcome⟩
  else if record.state = .running ∧ record.lease.any (·.expiresAt ≤ now) then
    return takeOver ports db occurrenceKey owner now leaseSeconds batchSize record
  else return ⟨db, .ok .unavailable⟩

def claim : Except Rejection (Committed ClaimOutcome) := do
  requireId occurrenceKey "retention occurrence"
  requireId owner "retention owner"
  require (1 ≤ batchSize ∧ batchSize ≤ 100 ∧ 1 ≤ leaseSeconds ∧ leaseSeconds ≤ 300) "ValueError"
    "retention limits are invalid"
  match db.maintenance.get? (jobId ports occurrenceKey) with
  | none => claimFirst ports db occurrenceKey owner now leaseSeconds batchSize
  | some record => claimAgain ports db occurrenceKey owner now leaseSeconds batchSize record

end

/-- The claim under which a running occurrence may still be executed. -/
def holdsClaim (record : MaintenanceRunRecord) (claim : RetentionClaim) : Prop :=
  record.state = .running ∧ record.version = claim.version ∧
    record.lease = some ⟨claim.owner, claim.claimedAt, claim.expiresAt⟩ ∧
    record.scope = ⟨claim.cutoffAt, claim.batchSize⟩

instance (record : MaintenanceRunRecord) (claim : RetentionClaim) :
    Decidable (holdsClaim record claim) :=
  inferInstanceAs (Decidable (_ ∧ _))

/-- Erase the selected details one after another and count them. -/
def eraseAll (ports : RetentionPorts) (now : Time) (db : RetentionDb)
    (candidates : List ((RetainedKind × String) × RetentionDetailRecord)) :
      Except Rejection (RetentionDb × RetentionCounts) :=
  candidates.foldlM
    (fun page candidate => do
      let db ← erase ports now page.1 candidate
      return (db, page.2.increment candidate.2.category))
    (db, .zero)

def countsMetadata (counts : RetentionCounts) : Document :=
  [("admitted_payload", .scalar (.number (toString counts.admittedPayload))),
    ("approval_detail", .scalar (.number (toString counts.approvalDetail))),
    ("artifact_detail", .scalar (.number (toString counts.artifactDetail))),
    ("audit_metadata", .scalar (.number (toString counts.auditMetadata))),
    ("connector_receipt_detail", .scalar (.number (toString counts.connectorReceiptDetail))),
    ("external_action_payload", .scalar (.number (toString counts.externalActionPayload)))]

/-- Record only bounded category totals for an atomic maintenance batch. -/
def completionEvent (ports : RetentionPorts) (db : RetentionDb) (claim : RetentionClaim)
    (counts : RetentionCounts) (occurredAt : Time) : AuditEventContent where
  feedSequence := (db.audits.rows.map (·.feedSequence)).max?.getD 0 + 1
  runSequence := none
  runId := none
  scheduleId := none
  eventType := .retentionCompleted
  safeMetadata := countsMetadata counts
  metadataExpiresAt := occurredAt + ports.retentionPolicy.ttlFor .auditMetadata
  occurredAt
  newState := none
  columns := [("actor_id", .scalar (.string claim.owner)),
    ("aggregate_id", .scalar (.string claim.jobId)),
    ("correlation_id", .scalar (.string claim.jobId))]

/-- Append the completion event and, where expiries are tracked, its detail. -/
def appendCompletion (ports : RetentionPorts) (db : RetentionDb) (claim : RetentionClaim)
    (counts : RetentionCounts) (occurredAt : Time) : Except Rejection RetentionDb := do
  let content := completionEvent ports db claim counts occurredAt
  let eventId := ports.completionEventId claim.jobId
  let fingerprints ← ports.issueDraft eventId content
  let event := {
    toAuditEventContent := content
    metadataFingerprint := fingerprints.metadata
    eventFingerprint := fingerprints.event }
  let audits ← requireSome (db.audits.insert? eventId event) "IntegrityError" "uq_audit_events_id"
  match ports.trackingPolicy with
  | none => return { db with audits }
  | some policy =>
      let details ← track .audit policy db.details
        (eventId, some ⟨none, content.occurredAt, some content.metadataExpiresAt⟩)
      return { db with audits, details }

def MaintenanceRunRecord.complete (record : MaintenanceRunRecord) (counts : RetentionCounts)
    (completedAt : Time) :
    MaintenanceRunRecord :=
  { record with
    state := .completed
    completedAt := some completedAt
    lease := none
    counts := some counts
    version := record.version + 1 }

/-- One batch under a valid claim, begun at one instant and completed at another. -/
def execute (ports : RetentionPorts) (db : RetentionDb) (claim : RetentionClaim)
    (now completedAt : Time) : Except Rejection (Committed RetentionResult) := do
  require (claim.claimedAt ≤ now ∧ now < claim.expiresAt) "RetentionConflict"
    "retention_lease_expired"
  let record ← requireSome (db.maintenance.get? claim.jobId) "RetentionConflict"
    "retention_stale_claim"
  require (holdsClaim record claim) "RetentionConflict" "retention_stale_claim"
  let registered ← registerLegacy ports db claim.batchSize
  let (erased, counts) ← eraseAll ports now registered
    (registered.candidates claim.cutoffAt claim.batchSize)
  require (now ≤ completedAt ∧ completedAt < claim.expiresAt) "RetentionConflict"
    "retention_lease_expired"
  let appended ← appendCompletion ports erased claim counts completedAt
  return {
    db := { appended with
      maintenance := appended.maintenance.set claim.jobId (record.complete counts completedAt) }
    result := RetentionResult.build claim.occurrenceKey counts completedAt false }

/-- The transactions on one database: claims and executions by any workers at any
instants, and everything else that the services commit. -/
inductive RetentionOperation where
  | claim (occurrenceKey owner : String) (now : Time) (leaseSeconds batchSize : Nat)
  | execute (claim : RetentionClaim) (now completedAt : Time)
  | service
deriving DecidableEq

/-- The run that a row stands under, if there is such a row. -/
def RetentionDb.rowRun (db : RetentionDb) : RetainedKind → String → Option (Option String)
  | .action, id => (db.actions.get? id).map fun row => some row.runId
  | .approval, id => (db.approvals.get? id).map fun row => some row.runId
  | .artifact, id => (db.artifacts.get? id).map fun row => some row.runId
  | .attempt, id => (db.attempts.get? id).map fun row => some row.runId
  | .audit, id => (db.audits.get? id).map fun row => row.runId
  | .work, _ | .receipt, _ | .brief, _ => some none

/-- A detail as it is first tracked. -/
def Tracked (db : RetentionDb) (key : RetainedKind × String)
    (detail : RetentionDetailRecord) : Prop :=
  ∃ policy source, db.rowRun key.1 key.2 = some source.runId ∧
    trackingRecord key.1 policy source = .ok detail

/-- Service transactions track new records, never move a row to another run and leave
what retention wrote alone. -/
structure ServiceChange (before after : RetentionDb) : Prop where
  maintenance : after.maintenance = before.maintenance
  kept : ∀ key detail, before.details.get? key = some detail → after.details.get? key = some detail
  tracked : ∀ key detail, before.details.get? key = none → after.details.get? key = some detail →
    Tracked after key detail
  runs : ∀ kind id run, before.rowRun kind id = some run → after.rowRun kind id = some run

def Steps (ports : RetentionPorts) (before : RetentionDb) (operation : RetentionOperation)
    (after : RetentionDb) : Prop :=
  match operation with
  | .claim occurrenceKey owner now leaseSeconds batchSize =>
      after = settled before (claim ports before occurrenceKey owner now leaseSeconds batchSize)
  | .execute claim now completedAt =>
      after = settled before (execute ports before claim now completedAt)
  | .service => ServiceChange before after

/-- Any database whose maintenance has not begun. -/
def retentionMachine (ports : RetentionPorts) : Machine RetentionDb RetentionOperation where
  initial db := db.maintenance = .empty ∧ ∀ key detail, db.details.get? key = some detail →
    Tracked db key detail
  step := Steps ports

end MarketingAgents.Retention
