import MarketingAgents.Domain.Enums
import MarketingAgents.Domain.PlainText
import MarketingAgents.Domain.PolicyHash
import MarketingAgents.Library.Base64Url
import MarketingAgents.Library.CivilTime

namespace MarketingAgents

open Library
open Library.JsonText

/-! # Page cursors

The cursors of the run list, the run timeline, the artifacts of a run, the
audit feed and the schedules: a canonical JSON record in Base64 behind a
versioned prefix, and the checks under which each is read again.
-/

/-- A datetime of universal time. -/
abbrev UtcTime := { value : Datetime // value.Valid }

def UtcTime.isoformatMicroseconds (value : UtcTime) : String :=
  ZonedDatetime.isoformat ⟨value.val, some 0⟩

/-- Microseconds are written only where there are some. -/
def UtcTime.isoformat (value : UtcTime) : String :=
  if value.val.microsecond = 0 then
    String.ofList (writeDigits 4 value.val.year ++ '-' :: writeDigits 2 value.val.month ++
      '-' :: writeDigits 2 value.val.day ++ 'T' :: writeDigits 2 value.val.hour ++
      ':' :: writeDigits 2 value.val.minute ++ ':' :: writeDigits 2 value.val.second ++
        "+00:00".toList)
  else value.isoformatMicroseconds

/-- The digest with the readers of the language: bytes as JSON in whatever encoding they are,
floats beside the integer one, and timestamps with their microseconds east of universal time. -/
structure CursorSupport (φ : Type) extends HashSupport φ where
  loads : ByteArray → Option (PythonValue φ)
  floatIsOne : φ → Bool
  fromisoformat : String → Option (UtcTime × Option Int)

/-- What the readers and the digest are relied on for: canonical bytes and written
timestamps are read back, plain text is composed, single digits can be converted, and
a digest is hexadecimal. -/
structure CursorSupport.Lawful {φ : Type} (support : CursorSupport φ) : Prop where
  keeps : support.text.KeepsAscii
  digits : 1 ≤ support.numbers.maxStrDigits
  hexadecimal : ∀ message, (support.sha256 message).toList.all MarketingAgents.hexadecimal = true
  loads : ∀ value bytes, canonicalJsonBytes support.text support.numbers value = .ok bytes →
    support.loads bytes = jsonLoads support.numbers bytes
  fromisoformat : ∀ time : UtcTime, support.fromisoformat time.isoformatMicroseconds =
    some (time, some 0)

def CursorSupport.CollisionFree {φ : Type} (support : CursorSupport φ) : Prop :=
  ∀ message other, support.sha256 message = support.sha256 other → message = other

section

variable {φ : Type}

def PythonValue.isMapping : PythonValue φ → Bool
  | .mapping _ => true
  | _ => false

/-- The string under a name. -/
def PythonValue.string? (name : String) (value : PythonValue φ) : Option String :=
  match value.item? name with
  | some (.str text) => some text
  | _ => none

/-- The integer under a name, which is no truth value. -/
def PythonValue.integer? (name : String) (value : PythonValue φ) : Option Int :=
  match value.item? name with
  | some (.int number) => some number
  | _ => none

def PythonValue.text? : PythonValue φ → Option String
  | .str text => some text
  | _ => none

def PythonValue.strings? (name : String) (value : PythonValue φ) : Option (List String) :=
  match value.item? name with
  | some (.sequence items) => items.mapM PythonValue.text?
  | _ => none

/-- Equal to the integer one, as truth values and floats can be. -/
def CursorSupport.equalsOne (support : CursorSupport φ) : PythonValue φ → Bool
  | .int number => number = 1
  | .bool value => value
  | .float value => support.floatIsOne value
  | _ => false

def CursorSupport.versionOne (support : CursorSupport φ) (value : PythonValue φ) : Bool :=
  (value.item? "version").any support.equalsOne

variable (support : CursorSupport φ)

/-- A cursor for the bytes of a payload. -/
def cursorToken (cursorPrefix : String) (raw : ByteArray) : String :=
  cursorPrefix ++ String.ofList (Base64Url.token raw.data.toList)

def encodePayload (cursorPrefix : String) (payload : PythonValue φ) : Except Rejection String := do
  let bytes ← canonicalJsonBytes support.text support.numbers payload
  return cursorToken cursorPrefix bytes

/-- What the cursors of one kind have in common, and the refusals of their reader. -/
structure CursorKind where
  cursorPrefix : String
  names : List String
  code : String
  payloadMessage : String
  message : String

def decodePayload (kind : CursorKind) (cursor : String) :
    Except Rejection (PythonValue φ × ByteArray) := do
  require (kind.cursorPrefix.toList <+: cursor.toList) kind.code kind.payloadMessage
  let encoded := cursor.toList.drop kind.cursorPrefix.toList.length
  let raw ← requireSome (Base64Url.decode (Base64Url.pad encoded)) kind.code kind.payloadMessage
  let decoded ← requireSome (support.loads ⟨raw.toArray⟩) kind.code kind.payloadMessage
  require decoded.isMapping kind.code kind.payloadMessage
  return (decoded, ⟨raw.toArray⟩)

/-- Read a cursor whose payload has its names, its version and its endpoint, and whose
characters are those of its bytes. -/
def readCursor {β : Type} (kind : CursorKind) (endpoint : String) (read : PythonValue φ → Option β)
    (cursor : String) : Except Rejection β := do
  let (decoded, raw) ← decodePayload support kind cursor
  require (decoded.hasExactly kind.names ∧ support.versionOne decoded ∧
    decoded.string? "endpoint" = some endpoint) kind.code kind.message
  let boundary ← requireSome (read decoded) kind.code kind.message
  require (cursorToken kind.cursorPrefix raw = cursor) kind.code kind.message
  return boundary

/-- The UTC time that a text is read as. -/
def decodeTime (text : String) : Option UtcTime :=
  match support.fromisoformat text with
  | some (time, some 0) => some time
  | _ => none

def optionalText (value : Option String) : PythonValue φ := .optional .str value

def optionalTime (value : Option UtcTime) : PythonValue φ :=
  .optional (fun time => .str time.isoformatMicroseconds) value

/-- The digest of the filters of a list. -/
def filterFingerprint (domain : ByteArray) (filters : List (String × PythonValue φ)) :
    Except Rejection String := do
  let bytes ← canonicalJsonBytes support.text support.numbers (.record filters)
  return support.sha256 (domain ++ bytes)

def MAX_CURSOR_LENGTH : Nat := 1024

def MAX_PAGE_SIZE : Int := 100

/-- Where a page begins and how long it is. -/
structure PageRequest where
  cursor : Option String
  limit : Int

def PageRequest.validate (page : PageRequest) (limitMessage cursorMessage : String) :
    Except Rejection Unit := do
  require (1 ≤ page.limit ∧ page.limit ≤ MAX_PAGE_SIZE) "ValueError" limitMessage
  require (∀ cursor ∈ page.cursor, 1 ≤ cursor.toList.length ∧
    cursor.toList.length ≤ MAX_CURSOR_LENGTH) "ValueError" cursorMessage

def requireOrdered (start finish : Option UtcTime) (message : String) : Except Rejection Unit :=
  require (∀ first ∈ start, ∀ last ∈ finish, first.val.toInstant ≤ last.val.toInstant)
    "ValueError" message

structure RunFilters where
  state : Option RunState
  instanceId : Option String
  workflowId : Option String
  createdAtFrom : Option UtcTime
  createdAtTo : Option UtcTime
deriving DecidableEq

structure RunListQuery extends RunFilters, PageRequest

def RunListQuery.validate (query : RunListQuery) : Except Rejection Unit := do
  requireOptional (requireId · "run instance filter") query.instanceId
  requireOptional (requireId · "run workflow filter") query.workflowId
  requireOrdered query.createdAtFrom query.createdAtTo
    "run lower time bound cannot follow upper bound"
  query.toPageRequest.validate "run page limit is outside the supported range"
    "run page cursor is invalid"

structure RunTimelineQuery extends PageRequest

structure ArtifactListQuery extends PageRequest where
  runId : String

def ArtifactListQuery.validate (query : ArtifactListQuery) : Except Rejection Unit := do
  requireId query.runId "artifact run ID"
  query.toPageRequest.validate "artifact page limit is outside the supported range"
    "artifact page cursor is invalid"

structure AuditFilters where
  runId : Option String
  stepId : Option String
  actionId : Option String
  approvalId : Option String
  eventType : Option String
  occurredAtFrom : Option UtcTime
  occurredAtTo : Option UtcTime
deriving DecidableEq

structure AuditListQuery extends AuditFilters, PageRequest

def AuditListQuery.validate (query : AuditListQuery) : Except Rejection Unit := do
  requireOptional (requireId · "audit run filter") query.runId
  requireOptional (requireId · "audit step filter") query.stepId
  requireOptional (requireId · "audit action filter") query.actionId
  requireOptional (requireId · "audit approval filter") query.approvalId
  requireOptional (requireId · "audit event-type filter") query.eventType
  requireOrdered query.occurredAtFrom query.occurredAtTo
    "audit lower time bound cannot follow upper bound"
  query.toPageRequest.validate "audit page limit is outside the supported range"
    "audit page cursor is invalid"

/-- The place of an item in a list that is ordered by creation. -/
structure CreationBoundary where
  createdAt : UtcTime
  id : String
deriving DecidableEq

def creationNames : List String := ["created_at", "endpoint", "filter", "id", "version"]

def creationPayload (endpoint fingerprint : String) (boundary : CreationBoundary) :
    List (String × PythonValue φ) :=
  [("created_at", .str boundary.createdAt.isoformatMicroseconds), ("endpoint", .str endpoint),
    ("filter", .str fingerprint), ("id", .str boundary.id), ("version", .int 1)]

def creationBoundary (fingerprint : Except Rejection String) (fieldName : String)
    (decoded : PythonValue φ) : Option CreationBoundary := do
  let filter ← decoded.string? "filter"
  let id ← decoded.string? "id"
  let text ← decoded.string? "created_at"
  let expected ← fingerprint.toOption
  guard (filter = expected)
  let createdAt ← decodeTime support text
  let _ ← (requireId id fieldName).toOption
  return { createdAt, id }

def RUN_FILTER_DOMAIN : ByteArray := "marketing-agents:run-page-filter:v1\x00".toByteArray

def RunState.value : RunState → String
  | .received => "received"
  | .validated => "validated"
  | .planned => "planned"
  | .awaitingApproval => "awaiting_approval"
  | .executing => "executing"
  | .completed => "completed"
  | .failed => "failed"
  | .rejected => "rejected"
  | .cancelled => "cancelled"

def runFilterMembers (query : RunFilters) : List (String × PythonValue φ) :=
  [("created_at_from", optionalTime query.createdAtFrom),
    ("created_at_to", optionalTime query.createdAtTo),
    ("instance_id", optionalText query.instanceId),
      ("state", optionalText (query.state.map RunState.value)),
    ("workflow_id", optionalText query.workflowId)]

def runFilterFingerprint (query : RunFilters) : Except Rejection String :=
  filterFingerprint support RUN_FILTER_DOMAIN (runFilterMembers query)

def runCursor : CursorKind where
  cursorPrefix := "run-page-v1."
  names := creationNames
  code := "run_cursor_invalid"
  payloadMessage := "runtime page cursor is invalid"
  message := "run page cursor is invalid"

/-- Of the resource, its creation time and its identity are read. -/
def encodeRunCursor (resource : CreationBoundary) (query : RunFilters) :
    Except Rejection String := do
  let fingerprint ← runFilterFingerprint support query
  encodePayload support runCursor.cursorPrefix
    (.record (creationPayload "runs-v1" fingerprint resource))

def decodeRunCursor (query : RunListQuery) : Except Rejection (Option CreationBoundary) :=
  match query.cursor with
  | none => .ok none
  | some cursor => do
      let boundary ← readCursor support runCursor "runs-v1"
        (creationBoundary support (runFilterFingerprint support query.toRunFilters) "run cursor ID")
          cursor
      return some boundary

def ARTIFACT_FILTER_DOMAIN : ByteArray := "marketing-agents:artifact-page-filter:v1\x00".toByteArray

def artifactFilterFingerprint (runId : String) : Except Rejection String :=
  filterFingerprint support ARTIFACT_FILTER_DOMAIN [("run_id", .str runId)]

def artifactCursor : CursorKind where
  cursorPrefix := "artifact-page-v1."
  names := creationNames
  code := "artifact_cursor_invalid"
  payloadMessage := "artifact page cursor is invalid"
  message := "artifact page cursor is invalid"

def artifactEndpoint (runId : String) : String := "run-artifacts:" ++ runId

def encodeArtifactCursor (resource : CreationBoundary) (runId : String) :
    Except Rejection String := do
  let fingerprint ← artifactFilterFingerprint support runId
  encodePayload support artifactCursor.cursorPrefix
    (.record (creationPayload (artifactEndpoint runId) fingerprint resource))

def decodeArtifactCursor (query : ArtifactListQuery) : Except Rejection (Option CreationBoundary) :=
  match query.cursor with
  | none => .ok none
  | some cursor => do
      let boundary ← readCursor support artifactCursor (artifactEndpoint query.runId)
        (creationBoundary support (artifactFilterFingerprint support query.runId)
          "artifact cursor ID") cursor
      return some boundary

def timelineCursor : CursorKind where
  cursorPrefix := "run-timeline-v1."
  names := ["endpoint", "run_id", "sequence", "version"]
  code := "run_timeline_cursor_invalid"
  payloadMessage := "runtime page cursor is invalid"
  message := "run timeline cursor is invalid"

def timelineEndpoint (runId : String) : String := "run-timeline:" ++ runId

def timelinePayload (runId : String) (sequence : Int) : List (String × PythonValue φ) :=
  [("endpoint", .str (timelineEndpoint runId)), ("run_id", .str runId), ("sequence", .int sequence),
    ("version", .int 1)]

def encodeTimelineCursor (runId : String) (sequence : Int) : Except Rejection String :=
  encodePayload support timelineCursor.cursorPrefix (.record (timelinePayload runId sequence))

def timelineBoundary (runId : String) (decoded : PythonValue φ) : Option Int := do
  guard (decoded.string? "run_id" = some runId)
  let sequence ← decoded.integer? "sequence"
  guard (1 ≤ sequence)
  return sequence

def decodeTimelineCursor (runId : String) (query : RunTimelineQuery) : Except Rejection Int :=
  match query.cursor with
  | none => .ok 0
  | some cursor =>
      readCursor support timelineCursor (timelineEndpoint runId) (timelineBoundary runId) cursor

def AUDIT_FEED_ENDPOINT_VERSION : String := "audit-events-v1"

def AUDIT_FILTER_DOMAIN : ByteArray := "marketing-agents:audit-feed-filter:v1\x00".toByteArray

structure AuditBoundary where
  highWatermark : Int
  beforeFeedSequence : Int
deriving DecidableEq

def auditFilterMembers (query : AuditFilters) : List (String × PythonValue φ) :=
  [("action_id", optionalText query.actionId), ("approval_id", optionalText query.approvalId),
    ("event_type", optionalText query.eventType),
      ("occurred_at_from", optionalTime query.occurredAtFrom),
    ("occurred_at_to", optionalTime query.occurredAtTo), ("run_id", optionalText query.runId),
    ("step_id", optionalText query.stepId)]

def auditFilterFingerprint (query : AuditFilters) : Except Rejection String :=
  filterFingerprint support AUDIT_FILTER_DOMAIN (auditFilterMembers query)

def auditCursor : CursorKind where
  cursorPrefix := "audit-feed-v1."
  names := ["before_feed_sequence", "endpoint", "filter", "high_watermark", "version"]
  code := "audit_cursor_invalid"
  payloadMessage := "audit feed cursor is invalid"
  message := "audit feed cursor is invalid"

def auditPayload (fingerprint : String) (boundary : AuditBoundary) :
    List (String × PythonValue φ) :=
  [("before_feed_sequence", .int boundary.beforeFeedSequence),
    ("endpoint", .str AUDIT_FEED_ENDPOINT_VERSION),
    ("filter", .str fingerprint), ("high_watermark", .int boundary.highWatermark),
      ("version", .int 1)]

def encodeAuditCursor (boundary : AuditBoundary) (query : AuditFilters) :
    Except Rejection String := do
  let fingerprint ← auditFilterFingerprint support query
  encodePayload support auditCursor.cursorPrefix (.record (auditPayload fingerprint boundary))

def auditBoundary (fingerprint : Except Rejection String) (decoded : PythonValue φ) :
    Option AuditBoundary := do
  let filter ← decoded.string? "filter"
  let highWatermark ← decoded.integer? "high_watermark"
  let beforeFeedSequence ← decoded.integer? "before_feed_sequence"
  guard (1 ≤ highWatermark ∧ 1 ≤ beforeFeedSequence ∧ beforeFeedSequence ≤ highWatermark)
  let expected ← fingerprint.toOption
  guard (filter = expected)
  return { highWatermark, beforeFeedSequence }

def decodeAuditCursor (query : AuditListQuery) : Except Rejection (Option AuditBoundary) :=
  match query.cursor with
  | none => .ok none
  | some cursor => do
      let boundary ← readCursor support auditCursor AUDIT_FEED_ENDPOINT_VERSION
        (auditBoundary (auditFilterFingerprint support query.toAuditFilters)) cursor
      return some boundary

def schedulePrefix : String := "schedule-v1."

structure SchedulePageQuery where
  limit : Int
  cursor : Option String

def SchedulePageQuery.validate (query : SchedulePageQuery) : Except Rejection Unit := do
  require (1 ≤ query.limit ∧ query.limit ≤ 100) "schedule_query_invalid" "schedule_query_invalid"
  require (∀ cursor ∈ query.cursor, 1 ≤ cursor.toList.length ∧ cursor.toList.length ≤ 2048 ∧
      (cursor.toList.all fun character => character.toNat < 128) = true)
    "schedule_cursor_invalid" "schedule_cursor_invalid"

/-- The identity of a configured schedule. -/
def scheduleIdText (value : String) : Bool :=
  "schedule.configuration.".toList.isPrefixOf value.toList &&
    digestText (value.toList.drop "schedule.configuration.".toList.length)

def schedulePayload (scope : String) (key : List String) : List (String × PythonValue φ) :=
  [("scope", .str scope), ("key", .strings key), ("version", .int 1)]

def encodeScheduleCursor (scope : String) (key : List String) : Except Rejection String :=
  encodePayload support schedulePrefix (.record (schedulePayload scope key))

/-- The key under a cursor, which is compared with what it is written as. -/
def scheduleKey (scope cursor : String) : Option (List String) := do
  guard (schedulePrefix.toList <+: cursor.toList)
  let raw ← Base64Url.decode (Base64Url.pad (cursor.toList.drop schedulePrefix.toList.length))
  let value ← support.loads ⟨raw.toArray⟩
  guard (value.hasExactly ["scope", "key", "version"])
  let version ← value.integer? "version"
  guard (version = 1 ∧ value.string? "scope" = some scope)
  let key ← value.strings? "key"
  guard (key.length = if scope = "schedules" then 1 else 2)
  let written ← (encodeScheduleCursor support scope key).toOption
  guard (written = cursor)
  let identity ← key.getLast?
  let _ ← (requireId identity "schedule cursor identity").toOption
  guard (scope = "schedules" → key.head?.any scheduleIdText)
  return key

def decodeScheduleCursor (query : SchedulePageQuery) (scope : String) :
    Except Rejection (Option (List String)) := do
  query.validate
  match query.cursor with
  | none => .ok none
  | some cursor => do
      let key ← requireSome (scheduleKey support scope cursor) "schedule_cursor_invalid"
        "schedule_cursor_invalid"
      return some key

end

end MarketingAgents
