import MarketingAgents.Persistence.AuditRepository

namespace MarketingAgents

open Library

/-! # Pages of a run timeline and of the public feed -/

namespace AuditEventRecord

/-- The checks under which a stored event is read back. -/
def hydrate (record : AuditEventRecord) : Except Rejection AuditEventRecord := do
  require (1 ≤ record.feedSequence) "audit_feed_sequence_corrupt"
    "persisted audit event has no valid public feed sequence"
  require (record.draft.runId.isSome = record.runSequence.isSome ∧ record.runSequence ≠ some 0)
    "audit_record_corrupt" "persisted audit event violates its typed semantic contract"
  return record

end AuditEventRecord

namespace AuditFeedFilter

variable (filter : AuditFeedFilter)

def requireOptionalId (value : Option String) (name : String) : Except Rejection Unit :=
  match value with
  | none => .ok ()
  | some value => requireId value name

def check : Except Rejection Unit := do
  requireOptionalId filter.runId "audit Run filter"
  requireOptionalId filter.stepId "audit step filter"
  requireOptionalId filter.actionId "audit action filter"
  requireOptionalId filter.approvalId "audit approval filter"
  requireOptionalId filter.eventType "audit event-type filter"
  require (filter.occurredAtFrom.all fun lower => filter.occurredAtTo.all fun upper =>
    lower ≤ upper) "ValueError" "audit time range is inverted"

/-- Every filter that is given agrees with the event. -/
def selects (event : AuditEventRecord) : Bool :=
  filter.runId.all (event.draft.runId = some ·) &&
    filter.stepId.all (event.draft.stepId = some ·) &&
    filter.actionId.all (event.draft.actionId = some ·) &&
    filter.approvalId.all (event.draft.approvalRequestId = some ·) &&
    filter.eventType.all (event.draft.eventType.value = ·) &&
    filter.occurredAtFrom.all (· ≤ event.draft.occurredAt) &&
    filter.occurredAtTo.all (event.draft.occurredAt ≤ ·)

def active : Bool :=
  filter.runId.isSome || filter.stepId.isSome || filter.actionId.isSome ||
    filter.approvalId.isSome ||
    filter.eventType.isSome || filter.occurredAtFrom.isSome || filter.occurredAtTo.isSome

end AuditFeedFilter

namespace AuditLog

variable (log : AuditLog)

def listRun (runId : String) (afterSequence limit : Nat) :
    Except Rejection (List AuditEventRecord) := do
  require (1 ≤ limit ∧ limit ≤ 500) "ValueError" "audit page limit must be from 1 through 500"
  let runCounter ← requireSome (log.timelines.get? runId) "audit_run_missing"
    "audit timeline run does not exist"
  require (runCounter ≠ 0 ∧ log.contiguous runId runCounter) "audit_timeline_not_contiguous"
    "persisted per-run audit timeline disagrees with its sequence counter"
  require (afterSequence ≤ runCounter) "audit_cursor_beyond_timeline"
    "audit cursor exceeds the persisted timeline"
  let selected := (log.timeline runId).filter fun event =>
    event.runSequence.any fun sequence => afterSequence < sequence && sequence ≤ runCounter
  let rows := (selected.insertionSort fun left right =>
    left.runSequence.getD 0 ≤ right.runSequence.getD 0).take limit
  require (rows.map (·.runSequence) =
      (List.range' (afterSequence + 1) (min limit (runCounter - afterSequence))).map some)
    "audit_timeline_not_contiguous" "persisted per-run audit timeline contains a sequence gap"
  rows.mapM (·.hydrate)

def listFeed (highWatermark beforeFeedSequence : Option Nat) (filter : AuditFeedFilter)
    (limit : Nat) : Except Rejection AuditFeedPage := do
  filter.check
  require (1 ≤ limit ∧ limit ≤ 101) "ValueError" "audit feed page limit must be from 1 through 101"
  require (log.feed ≠ none ∨ log.events = []) "audit_feed_counter_missing"
    "persisted audit events exist without their public feed counter"
  let currentWatermark := log.feed.getD 0
  require (log.feedContiguous currentWatermark) "audit_feed_not_contiguous"
    "public audit feed counter disagrees with its committed tail"
  require (highWatermark.all (· ≤ currentWatermark)) "audit_feed_watermark_invalid"
    "audit feed high watermark exceeds committed history"
  let selectedWatermark := highWatermark.getD currentWatermark
  require (beforeFeedSequence.all fun before =>
    1 ≤ before && before ≤ selectedWatermark + 1) "ValueError"
    "audit feed cursor boundary is invalid"
  if selectedWatermark = 0 then return { highWatermark := 0, events := [] }
  let selected := log.events.filter fun event =>
    event.feedSequence ≤ selectedWatermark && beforeFeedSequence.all (event.feedSequence < ·) &&
      filter.selects event
  let rows := (selected.insertionSort fun left right =>
    right.feedSequence ≤ left.feedSequence).take limit
  let events ← rows.mapM (·.hydrate)
  let sequences := events.map (·.feedSequence)
  require (sequences = sequences.insertionSort (· ≥ ·)) "audit_feed_order_corrupt"
    "persisted audit feed page is not in immutable sequence order"
  let pageTop := min selectedWatermark ((beforeFeedSequence.map (· - 1)).getD selectedWatermark)
  require (filter.active ∨ sequences =
    (List.range' (pageTop + 1 - min limit pageTop) (min limit pageTop)).reverse)
    "audit_feed_not_contiguous" "persisted public audit feed page contains a sequence gap"
  return { highWatermark := selectedWatermark, events }

end AuditLog

end MarketingAgents
