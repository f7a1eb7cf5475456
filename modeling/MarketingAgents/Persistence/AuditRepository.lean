import Mathlib.Data.List.Sort
import MarketingAgents.Domain.AuditTimeline
import MarketingAgents.Domain.Validation
import MarketingAgents.Library.Table

namespace MarketingAgents

open Library

/-! # The audit timeline and the public feed

A transaction of the repository is written statement by statement, because its
counters are locked at different instants: every statement reads what is
committed at that instant together with what the transaction wrote before.
-/

/-- The rows of the audit tables: a counter for each run, the feed counter and the events. -/
structure AuditLog where
  timelines : Table String Nat
  feed : Option Nat
  events : List AuditEventRecord
deriving DecidableEq

/-- An event whose place in the timeline of its run is allocated. -/
structure AuditAllocation where
  draft : AuditEventDraft
  runSequence : Option Nat
deriving DecidableEq

/-- What a transaction does next. -/
inductive AppendStage where
  | idle
  | received (runId : String)
  | counted (runId : String) (drafts : List AuditEventDraft) (endSequence : Nat)
  | allocating (allocations : List AuditAllocation)
  | counterMissing (allocations : List AuditAllocation)
  | counterCreating (allocations : List AuditAllocation)
  | reallocating (allocations : List AuditAllocation)
  | allocated (allocations : List AuditAllocation) (endSequence : Nat)
  | inserting (allocations : List AuditAllocation) (firstSequence : Nat)
  | failed (error : Rejection)
deriving DecidableEq

/-- What an open transaction wrote and what it does next. -/
structure AuditTransaction where
  timelines : Table String Nat
  feed : Option Nat
  events : List AuditEventRecord
  stage : AppendStage
deriving DecidableEq

namespace AuditLog

variable (log : AuditLog)

def timeline (runId : String) : List AuditEventRecord :=
  log.events.filter fun event => event.draft.runId = some runId

/-- What a transaction sees: the committed rows under its own writes. -/
def seenBy (transaction : AuditTransaction) : AuditLog where
  timelines := log.timelines.overlay transaction.timelines
  feed := transaction.feed.or log.feed
  events := log.events ++ transaction.events

/-- The events of a run are as many as its counter says and span its sequences. -/
def contiguous (runId : String) (count : Nat) : Bool :=
  let sequences := (log.timeline runId).filterMap (·.runSequence)
  decide ((log.timeline runId).length = count) &&
    (if count = 0 then sequences.min? = none && sequences.max? = none
    else sequences.min? = some 1 && sequences.max? = some count)

/-- The feed counter stands at the last committed event. -/
def feedContiguous (count : Nat) : Bool :=
  let maximumSequence := (log.events.map (·.feedSequence)).max?
  if count = 0 then maximumSequence = none else maximumSequence = some count

end AuditLog

namespace AuditEventDraft

/-- The batches without a run that the repository recognises. -/
def globalBatch (events : List AuditEventDraft) : Bool :=
  let runless := events.all fun event => event.runId = none
  let unscheduled := runless && events.all fun event =>
    event.scheduleId = none && event.occurrenceId = none
  let scheduleId := events.head?.bind (·.scheduleId)
  let single (type : AuditEventType) := unscheduled && decide (events.map (·.eventType) = [type])
  let webhook := decide (events.map (·.eventType) ∈
    ([[.webhookSignatureRejected], [.webhookSignatureValidated],
      [.webhookSignatureValidated, .ingressRateLimited],
        [.webhookSignatureValidated, .webhookSchemaRejected],
      [.webhookSignatureValidated, .webhookReceived],
      [.webhookSignatureValidated, .webhookDuplicateSuppressed],
      [.webhookSignatureValidated, .webhookIdempotencyCollision]] : List (List AuditEventType))) &&
    unscheduled && ["source", "trigger_id", "webhook_attempt_id"].all fun key =>
      events.all fun event => event.safeMetadata.lookup key =
        (events.head?.bind (·.safeMetadata.lookup key))
  (scheduleId.isSome && runless && events.all fun event => event.scheduleId = scheduleId &&
      event.eventType.aggregateType ∈
        ([.schedule, .scheduleOccurrence] : List AuditAggregateType)) ||
    single .instanceConfigurationChanged || single .campaignBriefCreated ||
      single .retentionCompleted ||
    single .ingressSchemaRejected || webhook

end AuditEventDraft

namespace AuditAllocation

/-- Consecutive places in the timeline of a run. -/
def ofRun (drafts : List AuditEventDraft) (firstSequence : Nat) : List AuditAllocation :=
  drafts.mapIdx fun offset draft => { draft, runSequence := some (firstSequence + offset) }

def ofGlobal (drafts : List AuditEventDraft) : List AuditAllocation :=
  drafts.map fun draft => { draft, runSequence := none }

def toRecords (allocations : List AuditAllocation) (firstSequence : Nat) : List AuditEventRecord :=
  allocations.mapIdx fun offset allocation => {
    draft := allocation.draft
    runSequence := allocation.runSequence
    feedSequence := firstSequence + offset }

end AuditAllocation

namespace AuditEventRecord

/-- Two rows that the unique constraints of the event table exclude together. -/
def conflicts (left right : AuditEventRecord) : Bool :=
  left.draft.id = right.draft.id || left.feedSequence = right.feedSequence ||
    (left.draft.runId.isSome && left.draft.runId = right.draft.runId &&
      (left.runSequence = right.runSequence || (left.draft.attemptId.isSome &&
        left.draft.attemptId = right.draft.attemptId &&
          left.draft.eventType = right.draft.eventType))) ||
    (left.draft.mutationVersion.isSome && left.draft.mutationVersion =
      right.draft.mutationVersion &&
      left.draft.eventType.aggregateType = right.draft.eventType.aggregateType &&
      left.draft.aggregateId = right.draft.aggregateId)

end AuditEventRecord

namespace AuditTransaction

def empty : AuditTransaction where
  timelines := .empty
  feed := none
  events := []
  stage := .idle

variable (transaction : AuditTransaction) (view : AuditLog)

def fail (code message : String) : AuditTransaction :=
  { transaction with stage := .failed { code, message } }

/-- Insert the row of a new run, whose counter starts at zero. -/
def receive (runId : String) : Option AuditTransaction := do
  guard (transaction.stage = .idle ∧ view.timelines.get? runId = none)
  return { transaction with
    timelines := transaction.timelines.put runId 0, stage := .received runId }

def checkRunBatch (drafts : List AuditEventDraft) : Except Rejection String := do
  require (drafts ≠ [] ∧ drafts.length ≤ 128) "ValueError"
    "audit append batch must contain from 1 through 128 events"
  let runId ← requireSome (drafts.head?.bind (·.runId)) "ValueError"
    "Run audit append requires one Run timeline"
  require (drafts.all fun event => event.runId = some runId) "ValueError"
    "one audit append batch may target only one run timeline"
  require (drafts.map (·.id)).Nodup "ValueError" "audit append batch event IDs must be unique"
  return runId

/-- The first statement of an append: the counter of the run moves by the size of the batch. -/
def appendMany (drafts : List AuditEventDraft) : AuditTransaction :=
  match checkRunBatch drafts with
  | .error error => { transaction with stage := .failed error }
  | .ok runId =>
      match view.timelines.get? runId with
      | none => transaction.fail "audit_run_missing" "audit timeline run does not exist"
      | some last => { transaction with
          timelines := transaction.timelines.put runId (last + drafts.length)
          stage := .counted runId drafts (last + drafts.length) }

def checkGlobalBatch (drafts : List AuditEventDraft) : Except Rejection Unit := do
  require (drafts ≠ [] ∧ drafts.length ≤ 128) "ValueError"
    "global audit append batch must contain from 1 through 128 events"
  require (AuditEventDraft.globalBatch drafts) "ValueError"
    "global audit append requires a schedule batch or exact runless event"
  require (drafts.map (·.id)).Nodup "ValueError"
    "global audit append batch event IDs must be unique"

def appendGlobalMany (drafts : List AuditEventDraft) : AuditTransaction :=
  match checkGlobalBatch drafts with
  | .error error => { transaction with stage := .failed error }
  | .ok _ => { transaction with stage := .allocating (AuditAllocation.ofGlobal drafts) }

/-- The feed counter moves by the size of the batch, when it exists. -/
def allocateFeed (allocations : List AuditAllocation) (otherwise : AppendStage) :
    AuditTransaction :=
  match view.feed with
  | none => { transaction with stage := otherwise }
  | some last => { transaction with
      feed := some (last + allocations.length)
      stage := .allocated allocations (last + allocations.length) }

/-- The next statement of an append. -/
def resume : AuditTransaction :=
  match transaction.stage with
  | .idle | .received _ | .failed _ => transaction
  | .counted runId drafts endSequence =>
      let firstSequence := endSequence - drafts.length + 1
      let initial := drafts.head?.any fun event =>
        event.eventType = .runReceived && event.mutationVersion = some 1
      if view.contiguous runId (firstSequence - 1) && (firstSequence - 1 ≠ 0 || initial) then
        { transaction with stage := .allocating (AuditAllocation.ofRun drafts firstSequence) }
      else transaction.fail "audit_timeline_not_contiguous"
        "audit append cannot extend a missing or corrupt per-run timeline"
  | .allocating allocations =>
      transaction.allocateFeed view allocations (.counterMissing allocations)
  | .counterMissing allocations =>
      if view.events = [] then { transaction with stage := .counterCreating allocations }
      else transaction.fail "audit_feed_counter_missing"
        "persisted audit events exist without their public feed counter"
  | .counterCreating allocations =>
      -- An insert that another transaction won leaves the savepoint without effect.
      { transaction with feed := if view.feed = none then some 0 else transaction.feed
                         stage := .reallocating allocations }
  | .reallocating allocations => transaction.allocateFeed view allocations (.failed {
      code := "audit_feed_counter_missing"
      message := "public audit feed counter could not be initialized" })
  | .allocated allocations endSequence =>
      let firstSequence := endSequence - allocations.length + 1
      if view.feedContiguous (firstSequence - 1) then
        { transaction with stage := .inserting allocations firstSequence }
      else transaction.fail "audit_feed_not_contiguous"
        "public audit feed counter disagrees with its committed tail"
  | .inserting allocations firstSequence =>
      let records := AuditAllocation.toRecords allocations firstSequence
      if records.all (fun record => view.events.all fun event => !record.conflicts event) then
        { transaction with events := transaction.events ++ records, stage := .idle }
      else transaction.fail "audit_append_conflict"
        "audit event identity or mutation witness already exists"

/-- The feed row is held until the transaction ends once it was written. -/
def holdsFeed : Bool := transaction.feed.isSome

def holdsTimeline (runId : String) : Bool := (transaction.timelines.get? runId).isSome

/-- The next statement writes the feed row, or waits for whoever inserts it. -/
def needsFeed : Bool :=
  match transaction.stage with
  | .allocating _ | .reallocating _ => view.feed.isSome
  | .counterCreating _ => true
  | _ => false

end AuditTransaction

end MarketingAgents
