import MarketingAgents.Persistence.RetentionTables

namespace MarketingAgents.Retention

open Library

/-! # Fenced, bounded erasure of details

Every operation is one write transaction, so it reads one state of the tables
and leaves either that state or the one it commits.
-/

structure ArtifactProvenance where
  workflowId : String
  templateId : String

structure AuditFingerprints where
  metadata : String
  event : String
deriving DecidableEq

structure HydratedBrief where
  bodyDigest : String
  keyVersion : String
  classification : DataClassification

/-- The policies of the installation, the digests and the readers of the other
repositories.  A reader takes the identifier of a row with the row and says
whether it hydrates. -/
structure RetentionPorts where
  retentionPolicy : RetentionPolicy
  trackingPolicy : Option RetentionPolicy
  occurrenceDigest : String → String
  retentionDigest : RetentionMaterial → HexDigest
  payloadDigest : Document → String
  projectionIntegrityDigest : String → WorkItemRecord → String
  snapshotDigest : String → CampaignBriefRecord → String
  completionEventId : String → String
  mentionsExpiry : Document → Bool
  readWork : String → WorkItemRecord → Except Rejection Unit
  readAction : String → ExternalActionRecord → Except Rejection Unit
  verifyRequest : String → ApprovalRequestRecord → Except Rejection Unit
  readDecision : String → ApprovalDecisionRecord → Except Rejection Unit
  readArtifact : String → ArtifactRecord → List String → Except Rejection ArtifactProvenance
  readReceipt : String → ConnectorActionReceiptRecord → Except Rejection Unit
  readAttempt : String → ExecutionAttemptRecord → Except Rejection Unit
  issueDraft : String → AuditEventContent → Except Rejection AuditFingerprints
  hydrateBrief : String → CampaignBriefRecord → Except Rejection HydratedBrief

/-- The action states from which nothing has to be recovered. -/
def terminalActions : List ExternalActionState :=
  [.succeeded, .failed, .rejected, .cancelled, .superseded]

namespace RetentionDb

variable (db : RetentionDb)

def supersededRetry (attempt : ExecutionAttemptRecord) : Bool :=
  db.attempts.rows.any fun successor =>
    successor.runId = attempt.runId && successor.stepId = attempt.stepId &&
      successor.operationKey = attempt.operationKey &&
        attempt.attemptNumber < successor.attemptNumber

def pendingAttempt (attempt : ExecutionAttemptRecord) : Bool :=
  attempt.completedAt.isNone ||
    attempt.retryNotBefore.isSome && attempt.terminalReasonCode.isNone &&
      !db.supersededRetry attempt

def eligibleRun (cutoff : Time) (runId : String) : Bool :=
  (db.runs.get? runId).any fun run =>
    run.state.terminal &&
      !db.actions.rows.any (fun action => action.runId = runId && action.state ∉ terminalActions) &&
      !db.attempts.rows.any (fun attempt => attempt.runId = runId && db.pendingAttempt attempt) &&
      !(db.workerClaims.get? runId).any (cutoff < ·)

def eligibleWork (cutoff : Time) (workId : String) : Bool :=
  db.runs.entries.any fun entry => entry.2.workItemId = workId && db.eligibleRun cutoff entry.1

def eligibleReceipt (cutoff : Time) (receiptId : String) : Bool :=
  (db.receipts.get? receiptId).any fun receipt =>
    (db.actions.get? receipt.externalActionId).any fun action => db.eligibleRun cutoff action.runId

/-- A brief attached to any noneligible work remains recovery material. -/
def unsafeBrief (cutoff : Time) (briefId : String) : Bool :=
  db.works.entries.any fun entry =>
    entry.2.campaignBriefId = some briefId && !db.eligibleWork cutoff entry.1

def inactiveGlobalAudit (auditId : String) : Bool :=
  (db.audits.get? auditId).any fun audit =>
    audit.runId.isNone && audit.scheduleId.all fun schedule =>
      db.schedules.get? schedule ≠ some true

def liveChild (artifactId : String) : Bool :=
  db.artifactParents.any fun parent =>
    parent.parentArtifactId = artifactId &&
      (db.details.get? (.artifact, parent.artifactId)).all (·.purgedAt.isNone)

def selects (cutoff : Time) (key : RetainedKind × String) (detail : RetentionDetailRecord) : Bool :=
  detail.purgedAt.isNone && detail.expiresAt ≤ cutoff &&
    (key.1 ≠ .artifact || !db.liveChild key.2) &&
    (detail.runId.any (db.eligibleRun cutoff) ||
      key.1 = .work && db.eligibleWork cutoff key.2 ||
      key.1 = .receipt && db.eligibleReceipt cutoff key.2 ||
      key.1 = .brief && !db.unsafeBrief cutoff key.2 ||
      key.1 = .audit && db.inactiveGlobalAudit key.2)

end RetentionDb

/-- The order in which due details are erased. -/
def DueBefore (left right : (RetainedKind × String) × RetentionDetailRecord) : Prop :=
  left.2.expiresAt < right.2.expiresAt ∨ left.2.expiresAt = right.2.expiresAt ∧
    (left.1.1.value < right.1.1.value ∨ left.1.1.value = right.1.1.value ∧ left.1.2 ≤ right.1.2)

instance : DecidableRel DueBefore := fun left right =>
  inferInstanceAs (Decidable (left.2.expiresAt < right.2.expiresAt ∨
    left.2.expiresAt = right.2.expiresAt ∧
    (left.1.1.value < right.1.1.value ∨ left.1.1.value = right.1.1.value ∧ left.1.2 ≤ right.1.2)))

def RetentionDb.candidates (db : RetentionDb) (cutoff : Time) (batchSize : Nat) :
    List ((RetainedKind × String) × RetentionDetailRecord) :=
  ((db.details.entries.filter fun entry => db.selects cutoff entry.1 entry.2).insertionSort
    DueBefore).take batchSize

/-- What a row tells of its detail: the run, the creation and, where the row has one, the expiry. -/
structure TrackedSource where
  runId : Option String
  createdAt : Time
  expiresAt : Option Time

def trackingRecord (kind : RetainedKind) (policy : RetentionPolicy) (source : TrackedSource) :
    Except Rejection RetentionDetailRecord :=
  let expiresAt := source.expiresAt.getD (source.createdAt + policy.ttlFor kind.category)
  if expiry : source.createdAt < expiresAt then
    .ok {
      category := kind.category
      runId := source.runId
      createdAt := source.createdAt
      expiresAt
      purgedAt := none
      skeleton := none
      integrityDigest := none
      expiry
      purge := .inl ⟨rfl, rfl⟩ }
  else reject "IntegrityError" "ck_retention_details_expiry"

/-- What the rows of a table tell, in no particular order. -/
def tellRows {ρ : Type} (table : Table String ρ) (tell : ρ → TrackedSource) :
    List (String × Option TrackedSource) :=
  table.entries.map fun entry => (entry.1, some (tell entry.2))

/-- The briefs with what they tell.  An old seed configuration that only mentions an
expiry is listed without a detail. -/
def tellBriefs (mentionsExpiry : Document → Bool)
    (briefs : Table (String × Nat) CampaignBriefRecord) : List (String × Option TrackedSource) :=
  briefs.entries.filterMap fun entry =>
    match entry.2.snapshot with
    | .erased => none
    | .seed content => if mentionsExpiry content then some (entry.1.1, none) else none
    | .admitted expiresAt _ => some (entry.1.1, some ⟨none, entry.2.createdAt, some expiresAt⟩)

def RetentionDb.sources (db : RetentionDb) (mentionsExpiry : Document → Bool) :
    RetainedKind → List (String × Option TrackedSource)
  | .work => tellRows db.works fun row => ⟨none, row.createdAt, some row.inputProjectionExpiresAt⟩
  | .action => tellRows db.actions fun row => ⟨some row.runId, row.createdAt, none⟩
  | .approval => tellRows db.approvals fun row => ⟨some row.runId, row.requestedAt, none⟩
  | .artifact => tellRows db.artifacts fun row => ⟨some row.runId, row.createdAt, none⟩
  | .receipt => tellRows db.receipts fun row => ⟨none, row.createdAt, none⟩
  | .attempt => tellRows db.attempts fun row => ⟨some row.runId, row.reservedAt, none⟩
  | .audit => tellRows db.audits fun row => ⟨row.runId, row.occurredAt, some row.metadataExpiresAt⟩
  | .brief => tellBriefs mentionsExpiry db.briefs

def track (kind : RetainedKind) (policy : RetentionPolicy)
    (details : Table (RetainedKind × String) RetentionDetailRecord)
    (source : String × Option TrackedSource) :
    Except Rejection (Table (RetainedKind × String) RetentionDetailRecord) :=
  match source.2 with
  | none => .ok details
  | some tracked => do
      let detail ← trackingRecord kind policy tracked
      requireSome (details.insert? (kind, source.1) detail) "IntegrityError" "retention_details"

/-- The rows of one kind that have no detail, as many as the page still holds. -/
def RetentionDb.unregistered (db : RetentionDb) (mentionsExpiry : Document → Bool)
    (kind : RetainedKind) (remaining : Nat) : List (String × Option TrackedSource) :=
  (((db.sources mentionsExpiry kind).filter fun source =>
    (db.details.get? (kind, source.1)).isNone).insertionSort
    fun left right => left.1 ≤ right.1).take remaining

/-- Fixed historical TTLs, whatever the policy of the installation is now. -/
def legacyPolicy : RetentionPolicy := {}

def registerKind (ports : RetentionPorts) (page : RetentionDb × Nat) (kind : RetainedKind) :
    Except Rejection (RetentionDb × Nat) := do
  let rows := page.1.unregistered ports.mentionsExpiry kind page.2
  let details ← rows.foldlM (track kind legacyPolicy) page.1.details
  return ({ page.1 with details }, page.2 - rows.length)

/-- Register at most one bounded page of rows from before expiries were tracked. -/
def registerLegacy (ports : RetentionPorts) (db : RetentionDb) (limit : Nat) :
    Except Rejection RetentionDb := do
  let page ← [RetainedKind.work, .action, .approval, .artifact, .receipt, .attempt, .brief,
    .audit].foldlM (registerKind ports) (db, limit)
  return page.1

end MarketingAgents.Retention
