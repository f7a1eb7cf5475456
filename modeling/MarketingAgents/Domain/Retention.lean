import MarketingAgents.Domain.ApprovalRequests
import MarketingAgents.Domain.AuditTimeline
import MarketingAgents.Domain.ExecutionControl
import MarketingAgents.Domain.Validation
import MarketingAgents.Library.Json

namespace MarketingAgents

open Library

/-! # Retention categories, claims and erased details -/

inductive RetentionCategory where
  | admittedPayload
  | externalActionPayload
  | approvalDetail
  | artifactDetail
  | connectorReceiptDetail
  | auditMetadata
deriving DecidableEq, Repr

/-- The kinds of records whose detail is tracked. -/
inductive RetainedKind where
  | work
  | action
  | approval
  | artifact
  | receipt
  | attempt
  | audit
  | brief
deriving DecidableEq, Repr

def RetainedKind.value : RetainedKind → String
  | work => "work"
  | action => "action"
  | approval => "approval"
  | artifact => "artifact"
  | receipt => "receipt"
  | attempt => "attempt"
  | audit => "audit"
  | brief => "brief"

def RetainedKind.category : RetainedKind → RetentionCategory
  | work | attempt | brief => .admittedPayload
  | action => .externalActionPayload
  | approval => .approvalDetail
  | artifact => .artifactDetail
  | receipt => .connectorReceiptDetail
  | audit => .auditMetadata

def days (count : Nat) : Time := seconds (count * 86400)

structure RetentionPolicy where
  admittedPayloadDays : Nat := 7
  externalActionPayloadDays : Nat := 7
  approvalDetailDays : Nat := 7
  artifactDetailDays : Nat := 30
  connectorReceiptDetailDays : Nat := 30
  auditMetadataDays : Nat := 90
  bounded : ∀ value ∈ [admittedPayloadDays, externalActionPayloadDays, approvalDetailDays,
    artifactDetailDays,
    connectorReceiptDetailDays, auditMetadataDays], 1 ≤ value ∧ value ≤ 3650 := by decide
deriving DecidableEq

def RetentionPolicy.ttlFor (policy : RetentionPolicy) : RetentionCategory → Time
  | .admittedPayload => days policy.admittedPayloadDays
  | .externalActionPayload => days policy.externalActionPayloadDays
  | .approvalDetail => days policy.approvalDetailDays
  | .artifactDetail => days policy.artifactDetailDays
  | .connectorReceiptDetail => days policy.connectorReceiptDetailDays
  | .auditMetadata => days policy.auditMetadataDays

/-- How many details of each category one batch erased. -/
structure RetentionCounts where
  admittedPayload : Nat
  externalActionPayload : Nat
  approvalDetail : Nat
  artifactDetail : Nat
  connectorReceiptDetail : Nat
  auditMetadata : Nat
deriving DecidableEq

namespace RetentionCounts

def zero : RetentionCounts := ⟨0, 0, 0, 0, 0, 0⟩

def increment (counts : RetentionCounts) : RetentionCategory → RetentionCounts
  | .admittedPayload => { counts with admittedPayload := counts.admittedPayload + 1 }
  | .externalActionPayload =>
      { counts with externalActionPayload := counts.externalActionPayload + 1 }
  | .approvalDetail => { counts with approvalDetail := counts.approvalDetail + 1 }
  | .artifactDetail => { counts with artifactDetail := counts.artifactDetail + 1 }
  | .connectorReceiptDetail =>
      { counts with connectorReceiptDetail := counts.connectorReceiptDetail + 1 }
  | .auditMetadata => { counts with auditMetadata := counts.auditMetadata + 1 }

def values (counts : RetentionCounts) : List Nat :=
  [counts.admittedPayload, counts.externalActionPayload, counts.approvalDetail,
    counts.artifactDetail, counts.connectorReceiptDetail, counts.auditMetadata]

def total (counts : RetentionCounts) : Nat :=
  counts.admittedPayload + counts.externalActionPayload + counts.approvalDetail +
    counts.artifactDetail + counts.connectorReceiptDetail + counts.auditMetadata

@[simp] theorem total_zero : zero.total = 0 := rfl

theorem total_increment (counts : RetentionCounts) (category : RetentionCategory) :
    (counts.increment category).total = counts.total + 1 := by
  cases category <;> simp only [total, increment] <;> omega

theorem le_total {counts : RetentionCounts} {value : Nat} (listed : value ∈ counts.values) :
    value ≤ counts.total := by
  simp only [values, List.mem_cons, List.not_mem_nil, or_false] at listed
  unfold total
  omega

end RetentionCounts

/-- The fenced lease of one worker on one occurrence. -/
structure RetentionClaim where
  jobId : String
  occurrenceKey : String
  owner : String
  version : Nat
  claimedAt : Time
  expiresAt : Time
  cutoffAt : Time
  batchSize : Nat
  identified : ∀ value ∈ [jobId, occurrenceKey, owner],
    requireId value "retention claim identity" = .ok ()
  ordered : cutoffAt ≤ claimedAt ∧ claimedAt < expiresAt
  versioned : 1 ≤ version
  bounded : 1 ≤ batchSize ∧ batchSize ≤ 100
deriving DecidableEq

def RetentionClaim.build (jobId occurrenceKey owner : String) (version : Nat)
    (claimedAt expiresAt cutoffAt : Time) (batchSize : Nat) : Except Rejection RetentionClaim :=
  if identified : ∀ value ∈ [jobId, occurrenceKey, owner],
    requireId value "retention claim identity" = .ok () then
    if ordered : cutoffAt ≤ claimedAt ∧ claimedAt < expiresAt then
      if versioned : 1 ≤ version then
        if bounded : 1 ≤ batchSize ∧ batchSize ≤ 100 then
          .ok
            { jobId, occurrenceKey, owner, version, claimedAt, expiresAt, cutoffAt,
              batchSize, identified,
                ordered, versioned, bounded }
        else reject "ValueError" "retention claim batch is invalid"
      else reject "ValueError" "retention claim version is invalid"
    else reject "ValueError" "retention claim times are invalid"
  else reject "ValueError" "retention claim identity must be a stable nonempty identifier"

/-- What a completed occurrence returns to its callers. -/
structure RetentionResult where
  occurrenceKey : String
  counts : RetentionCounts
  completedAt : Time
  replayed : Bool
  identified : requireId occurrenceKey "retention result occurrence" = .ok ()
  bounded : (∀ value ∈ counts.values, value ≤ 100) ∧ counts.total ≤ 100
deriving DecidableEq

def RetentionResult.build (occurrenceKey : String) (counts : RetentionCounts) (completedAt : Time)
    (replayed : Bool) : Except Rejection RetentionResult :=
  if identified : requireId occurrenceKey "retention result occurrence" = .ok () then
    if bounded : (∀ value ∈ counts.values, value ≤ 100) ∧ counts.total ≤ 100 then
      .ok { occurrenceKey, counts, completedAt, replayed, identified, bounded }
    else reject "ValueError" "retention result counts are invalid"
  else reject "ValueError" "retention result occurrence must be a stable nonempty identifier"

/-- The values that a skeleton keeps of an erased record. -/
inductive SkeletonValue where
  | null
  | text (value : String)
  | texts (values : List String)
  | number (value : Nat)
  | instant (value : Time)
deriving DecidableEq

def SkeletonValue.optional : Option String → SkeletonValue
  | none => .null
  | some value => .text value

def ApprovalDecisionKind.value : ApprovalDecisionKind → String
  | approve => "approve"
  | reject => "reject"

def AttemptKind.value : AttemptKind → String
  | model => "model"
  | tool => "tool"
  | noCall => "no_call"

def AttemptOutcome.value : AttemptOutcome → String
  | succeeded => "succeeded"
  | transientFailure => "transient_failure"
  | permanentFailure => "permanent_failure"
  | cancelled => "cancelled"

/-- The content-free witness of an erased record. -/
structure RetentionSkeleton where
  publicValues : List (String × SkeletonValue)
  binding : List (String × SkeletonValue)
deriving DecidableEq

/-- A keyed digest in hexadecimal. -/
structure HexDigest where
  text : String
  complete : text.length = 64
deriving DecidableEq

/-- What the keyed digest of an erased detail covers. -/
structure RetentionMaterial where
  category : RetentionCategory
  recordKind : RetainedKind
  recordId : String
  runId : Option String
  createdAt : Time
  expiresAt : Time
  purgedAt : Option Time
  skeleton : Option RetentionSkeleton
deriving DecidableEq

/-- An erased detail whose witness was verified. -/
structure RetainedDetail where
  category : RetentionCategory
  recordKind : RetainedKind
  recordId : String
  createdAt : Time
  expiresAt : Time
  purgedAt : Time
  runId : Option String
  metadata : List (String × SkeletonValue)
  identified : requireId recordId "retained record ID" = .ok ()
  ordered : createdAt < expiresAt ∧ expiresAt ≤ purgedAt
deriving DecidableEq

end MarketingAgents
