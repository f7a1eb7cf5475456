import MarketingAgents.Domain.RunRecords
import MarketingAgents.Library.Machine
import MarketingAgents.Security.AdmissionDigest

namespace MarketingAgents

open Library

/-! # Work receipts

Admitted work is a work item with its primary run and the transition and event
that received it, inserted in one transaction under the unique source key of the
work.  Erasure leaves an authenticated skeleton of a work item, under which
repeated admissions are still recognized.
-/

/-- What is left of a work item without its stored input. -/
structure RetainedWorkItem where
  id : String
  source : String
  eventId : String
  instanceId : String
  triggerId : String
  workflowId : String
  mode : WorkMode
  brief : Option (String × Nat)
  configurationRevision : Nat
  createdAt : Time
  inputSchemaId : String
  inputSchemaHash : String
  inputClassification : DataClassification
  digests : AdmissionDigests
  inputProjectionIntegrityDigest : String
  projectionDigest : String
deriving DecidableEq

/-- A work item as the repository reads it. -/
inductive StoredWorkItem where
  | live (work : WorkItem)
  | retained (work : RetainedWorkItem)
deriving DecidableEq

/-- A row of the work table.  An erased row is sealed under the key of its erasure. -/
inductive WorkItemRow where
  | live (work : WorkItem)
  | erased (work : RetainedWorkItem) (sealKey : String)
deriving DecidableEq

/-- The keyed digests of the security library with the plain digest of a stored
projection.  What binds a stored input does not bind itself. -/
structure ReceiptDigests extends KeyedDigests where
  sha256 : String → String
  projection_bare : ∀ work digest key,
    projection { work with inputProjectionIntegrityDigest := digest } key = projection work key

/-- The event that witnesses the receipt of a run. -/
structure RunReceivedEvent where
  eventType : String
  runSequence : Nat
  runId : String
  aggregateId : String
  mutationVersion : Nat
  transitionSequence : Nat
  occurredAt : Time
  previousState : Option RunState
  newState : RunState
  reasonCode : String
  command : String
  catalogContentHash : String
deriving DecidableEq

/-- A run with its transitions in their order and the event of its receipt. -/
structure ReceivedRun where
  run : RunRecord
  transitions : List RunTransitionRecord
  receivedEvent : Option RunReceivedEvent
deriving DecidableEq

structure ReceiptRows where
  works : List WorkItemRow
  runs : List ReceivedRun
deriving DecidableEq

/-- One admission with the identifiers and the times that its transaction gets. -/
structure WorkReceiptRequest where
  incoming : ValidatedIncomingWork
  digestKey : String
  currentCatalogHash : String
  workItemId : String
  runId : String
  admittedAt : Time
  receivedAt : Time
deriving DecidableEq

structure WorkRunReceipt where
  workItem : WorkItem
  run : RunRecord
  disposition : AdmissionDisposition
  initialTransition : Option RunTransitionRecord
deriving DecidableEq

/-- How an admission raises: refused, in conflict with a work item that is there, or
bound to one whose input was erased. -/
inductive ReceiptError where
  | rejected (reason : Rejection)
  | conflict (reason : Rejection) (existingWorkItemId : String)
  | detailExpired (recordKind recordId : String)
deriving DecidableEq

namespace StoredWorkItem

def id : StoredWorkItem → String
  | live work => work.id
  | retained work => work.id

def digests : StoredWorkItem → AdmissionDigests
  | live work => work.digests
  | retained work => work.digests

def inputSchema : StoredWorkItem → String × String
  | live work => (work.inputSchemaId, work.inputSchemaHash)
  | retained work => (work.inputSchemaId, work.inputSchemaHash)

def inputClassification : StoredWorkItem → DataClassification
  | live work => work.inputClassification
  | retained work => work.inputClassification

variable (digests : ReceiptDigests) (key : String)

/-- The stored input is the one that was sealed at its admission. -/
def intact : StoredWorkItem → Bool
  | live work => work.inputProjectionIntegrityDigest = digests.projection work key
  | retained _ => true

def sameProjection (candidate : WorkItem) : StoredWorkItem → Bool
  | live work => work.redactedInputProjection = candidate.redactedInputProjection
  | retained work => work.projectionDigest = digests.sha256 candidate.redactedInputProjection

def conflict {α : Type} (existing : StoredWorkItem) (code message : String) :
    Except ReceiptError α :=
  .error (.conflict { code, message } existing.id)

/-- The work that is there may stand for the candidate, unless its input is gone. -/
def replay (existing : StoredWorkItem) (candidate : WorkItem) : Except ReceiptError WorkItem :=
  if existing.digests.digestKeyVersion ≠ candidate.digests.digestKeyVersion then
    existing.conflict "digest_key_version_mismatch"
      "existing work was admitted under a different digest key version"
  else if !existing.intact digests key then
    existing.conflict "input_projection_integrity_mismatch"
      "existing work has an invalid admitted-input projection integrity binding"
  else if existing.digests.inputDigest = candidate.digests.inputDigest ∧
      existing.digests.admissionDigest = candidate.digests.admissionDigest then
    if existing.inputSchema ≠ (candidate.inputSchemaId, candidate.inputSchemaHash) then
      existing.conflict "input_projection_schema_mismatch"
        "existing work is bound to a different input schema identity"
    else if existing.inputClassification ≠ candidate.inputClassification ∨
        existing.sameProjection digests candidate = false then
      existing.conflict "input_projection_mismatch"
        "existing work has a different redacted admitted-input projection"
    else match existing with
      | live work => .ok work
      | retained work => .error (.detailExpired "work" work.id)
  else
    existing.conflict "idempotency_conflict"
      "source event identity is already bound to different admitted work"

end StoredWorkItem

/-- Erase the stored input of a work item. -/
def WorkItem.erase (work : WorkItem) (sha256 : String → String) : RetainedWorkItem where
  id := work.id
  source := work.envelope.source
  eventId := work.envelope.eventId
  instanceId := work.envelope.instanceId
  triggerId := work.envelope.triggerId
  workflowId := work.envelope.workflowId
  mode := work.envelope.mode
  brief := work.envelope.brief
  configurationRevision := work.envelope.configurationRevision
  createdAt := work.createdAt
  inputSchemaId := work.inputSchemaId
  inputSchemaHash := work.inputSchemaHash
  inputClassification := work.inputClassification
  digests := work.digests
  inputProjectionIntegrityDigest := work.inputProjectionIntegrityDigest
  projectionDigest := sha256 work.redactedInputProjection

namespace WorkItemRow

def content : WorkItemRow → StoredWorkItem
  | live work => .live work
  | erased work _ => .retained work

def id (row : WorkItemRow) : String := row.content.id

def sourceKey : WorkItemRow → String × String × String
  | live work => work.sourceKey
  | erased work _ => (work.source, work.eventId, work.instanceId)

def configurationRevision : WorkItemRow → Nat
  | live work => work.envelope.configurationRevision
  | erased work _ => work.configurationRevision

/-- An erased row is read back under the key that sealed it. -/
def hydrate (key : String) : WorkItemRow → Except Rejection StoredWorkItem
  | live work => .ok (.live work)
  | erased work sealKey => do
      require (sealKey = key) "ValueError" "retained detail integrity mismatch"
      return .retained work

end WorkItemRow

/-- The snapshot that a run was received with. -/
def initialRunSnapshot (run : RunRecord) : RunRecord :=
  { run with
    state := .received
    updatedAt := run.createdAt
    approvalRequired := none
    terminalReasonCode := none
    version := 1 }

def runReceivedEvent (run : RunRecord) : RunReceivedEvent where
  eventType := "run.received"
  runSequence := 1
  runId := run.id
  aggregateId := run.id
  mutationVersion := 1
  transitionSequence := 1
  occurredAt := run.createdAt
  previousState := none
  newState := .received
  reasonCode := "work_admitted"
  command := "receive"
  catalogContentHash := "catalog-sha256-v1:" ++ removePrefix "catalog-sha256-v1:" run.catalogHash

def requireInitialRunEvent (existing : Option RunReceivedEvent) (run : RunRecord) :
    Except Rejection Unit := do
  let event ← requireSome existing "run_audit_witness_missing"
    "persisted Run mutation lacks its exact audit witness"
  require (event = runReceivedEvent run) "run_audit_witness_mismatch"
    "persisted Run initial audit witness does not match its authoritative snapshot"

namespace ReceiptRows

variable (rows : ReceiptRows)

def conflictsWork (candidate : WorkItem) : Bool :=
  rows.works.any fun row => row.id = candidate.id || row.sourceKey = candidate.sourceKey

def conflictsRun (candidate : RunRecord) : Bool :=
  rows.runs.any fun received => received.run.id = candidate.id ||
    received.run.workItemId = candidate.workItemId

def workBySourceKey (sourceKey : String × String × String) : Option WorkItemRow :=
  rows.works.find? fun row => row.sourceKey = sourceKey

def runByWorkItem (workItemId : String) : Option ReceivedRun :=
  rows.runs.find? fun received => received.run.workItemId = workItemId

def run? (id : String) : Option ReceivedRun := rows.runs.find? fun received => received.run.id = id

def transitionsOf (runId : String) : List RunTransitionRecord :=
  ((rows.run? runId).map (·.transitions)).getD []

def receivedEventOf (runId : String) : Option RunReceivedEvent :=
  (rows.run? runId).bind (·.receivedEvent)

end ReceiptRows

/-- The rows that stand when an admission reads the work item, the run, its
transitions, its event and once more its transitions of an earlier admission. -/
structure ReceiptSight where
  work : ReceiptRows
  run : ReceiptRows
  transitions : ReceiptRows
  event : ReceiptRows
  history : ReceiptRows

/-- The work item of an admission. -/
def ValidatedIncomingWork.workItem (incoming : ValidatedIncomingWork) (digests : KeyedDigests)
    (digestKey id : String) (now : Time) : WorkItem :=
  let candidate : WorkItem := {
    id
    envelope := incoming.envelope
    digests := digests.admission incoming.envelope digestKey
    createdAt := now
    redactedInputProjection := incoming.redactedInputProjection
    inputSchemaId := incoming.snapshot.inputSchemaId
    inputSchemaHash := incoming.snapshot.inputSchemaHash
    inputClassification := incoming.inputClassification
    inputProjectionIntegrityDigest := "" }
  { candidate with inputProjectionIntegrityDigest := digests.projection candidate digestKey }

namespace WorkReceiptRequest

variable (request : WorkReceiptRequest) (digests : ReceiptDigests) (sight : ReceiptSight)
  (rows : ReceiptRows)

def sourceKey : String × String × String :=
  (request.incoming.envelope.source, request.incoming.envelope.eventId,
    request.incoming.envelope.instanceId)

/-- The current catalog is the one that the work was validated against. -/
def requireCurrentSnapshot : Except Rejection Unit := do
  request.incoming.parts
  require (request.incoming.snapshot.catalogHash = request.currentCatalogHash) "catalog_drift"
    "incoming work was not validated against the current catalog release"

def workItem : WorkItem :=
  request.incoming.workItem digests.toKeyedDigests request.digestKey request.workItemId
    request.admittedAt

/-- Insert the work item, or find the one that has its source key and compare them. -/
def admitEnvelope : Except ReceiptError (WorkItem × AdmissionDisposition) :=
  if rows.conflictsWork (request.workItem digests) then
    match sight.work.workBySourceKey request.sourceKey with
    | none => .error (.rejected { code := "IntegrityError", message := "work item" })
    | some row =>
        match row.hydrate request.digestKey with
        | .error reason => .error (.rejected reason)
        | .ok existing =>
            (existing.replay digests request.digestKey (request.workItem digests)).map
              (·, .replayed)
  else .ok (request.workItem digests, .created)

def runCandidate (work : WorkItem) : RunRecord where
  id := request.runId
  workItemId := work.id
  state := .received
  catalogHash := request.incoming.snapshot.catalogHash
  configurationRevision := work.envelope.configurationRevision
  createdAt := request.receivedAt
  version := 1
  updatedAt := request.receivedAt
  approvalRequired := none
  terminalReasonCode := none

/-- Insert the run with its transition and its event, or find the one of the work
item with both of them. -/
def receiveRun (work : WorkItem) : Except Rejection (ReceivedRun × AdmissionDisposition) := do
  let candidate := request.runCandidate work
  candidate.validate
  let initial ← initialReceivedTransition candidate
  if rows.conflictsRun candidate then do
    let existing ← requireSome (sight.run.runByWorkItem candidate.workItemId) "IntegrityError" "run"
    require ((sight.transitions.transitionsOf existing.run.id).head?.any (·.sequence = 1))
      "RunPersistenceInvariantError" "existing primary Run has no initial received transition"
    requireInitialRunEvent (sight.event.receivedEventOf existing.run.id)
      (initialRunSnapshot existing.run)
    return ({ existing with transitions := sight.history.transitionsOf existing.run.id }, .replayed)
  else
    return (⟨candidate, [initial], some (runReceivedEvent (initialRunSnapshot candidate))⟩,
      .created)

/-- The work item and the run are created or replayed together and belong to each other. -/
def verifyReceipt (admitted : WorkItem × AdmissionDisposition)
    (received : ReceivedRun × AdmissionDisposition) : Except Rejection WorkRunReceipt := do
  require (admitted.2 = received.2) "mixed_receipt_disposition"
    "WorkItem and primary Run must be created or replayed together"
  require (received.1.run.workItemId = admitted.1.id ∧
      received.1.run.configurationRevision = admitted.1.envelope.configurationRevision ∧
      (received.2 = .created → received.1.run.catalogHash = request.incoming.snapshot.catalogHash))
    "receipt_correlation_mismatch" "primary Run does not bind the authoritative admitted WorkItem"
  (initialRunSnapshot received.1.run).validate
  let expected ← initialReceivedTransition (initialRunSnapshot received.1.run)
  require (received.1.transitions.head? = some expected) "initial_transition_missing"
    "primary Run lacks its contiguous initial received transition"
  require (received.2 = .created → received.1.transitions = [expected])
    "initial_transition_not_contiguous"
    "new primary Run receipt contains unexpected transition history"
  return {
    workItem := admitted.1
    run := received.1.run
    disposition := admitted.2
    initialTransition := if received.2 = .created then some expected else none }

/-- The rows that a receipt leaves. -/
def commit (work : WorkItem) (received : ReceivedRun) : AdmissionDisposition → ReceiptRows
  | .created => { works := rows.works ++ [.live work], runs := rows.runs ++ [received] }
  | .replayed => rows

/-- A whole admission that found the given rows and whose inserts meet the stored ones. -/
def receive : Except ReceiptError (ReceiptRows × WorkRunReceipt) :=
  match request.requireCurrentSnapshot with
  | .error reason => .error (.rejected reason)
  | .ok () =>
      match request.admitEnvelope digests sight rows with
      | .error error => .error error
      | .ok admitted =>
          match request.receiveRun sight rows admitted.1 with
          | .error reason => .error (.rejected reason)
          | .ok received =>
              match request.verifyReceipt admitted received with
              | .error reason => .error (.rejected reason)
              | .ok receipt => .ok (commit rows admitted.1 received.1 admitted.2, receipt)

end WorkReceiptRequest

/-- The rows with all that they ever were. -/
structure ReceiptSystem where
  rows : ReceiptRows
  history : List ReceiptRows

/-- Admissions, transitions of received runs and erasures of stored input. -/
inductive ReceiptOperation where
  | receive (request : WorkReceiptRequest) (sight : ReceiptSight)
  | advance (runId : String) (input : RunTransitionInput)
  | erase (workItemId sealKey : String)

def ReceivedRun.advance (received : ReceivedRun) (input : RunTransitionInput) : ReceivedRun :=
  match received.run.transition input with
  | .ok outcome =>
      { received with
        run := outcome.run, transitions := received.transitions ++ [outcome.transition] }
  | .error _ => received

def WorkItemRow.erase (row : WorkItemRow) (sha256 : String → String) (sealKey : String) :
    WorkItemRow :=
  match row with
  | .live work => .erased (work.erase sha256) sealKey
  | .erased work key => .erased work key

/-- What the constructors ask of an admission before it reads anything. -/
structure WorkReceiptRequest.WellFormed {φ : Type} (support : DigestSupport φ)
    (digests : ReceiptDigests) (request : WorkReceiptRequest) : Prop where
  runId : requireId request.runId "run ID" = .ok ()
  catalogHash : requireDigest
    (removePrefix "catalog-sha256-v1:" request.incoming.snapshot.catalogHash) "catalog hash" =
    .ok ()
  payload : request.incoming.envelope.Frozen support
  digests : support.deriveAdmissionDigests request.incoming.envelope request.digestKey =
    .ok (digests.admission request.incoming.envelope request.digestKey)

namespace ReceiptSystem

variable (digests : ReceiptDigests) (system : ReceiptSystem)

def write (rows : ReceiptRows) : ReceiptSystem := { rows, history := rows :: system.history }

/-- An insert that conflicts waits for the row with its source key, so whatever is
read after it was committed with that row or later. -/
def Sees (request : WorkReceiptRequest) (sight : ReceiptSight) : Prop :=
  ∀ found ∈ [sight.work, sight.run, sight.transitions, sight.event, sight.history],
    found ∈ system.history ∧
    (request.sourceKey ∈ system.rows.works.map (·.sourceKey) →
      request.sourceKey ∈ found.works.map (·.sourceKey))

def seen {φ : Type} (support : DigestSupport φ) : ReceiptOperation → Prop
  | .receive request sight => request.WellFormed support digests ∧ system.Sees request sight
  | .advance .. | .erase .. => True

def after : ReceiptOperation → ReceiptSystem
  | .receive request sight =>
      match request.receive digests sight system.rows with
      | .ok (rows, _) => system.write rows
      | .error _ => system
  | .advance runId input => system.write { system.rows with
      runs := system.rows.runs.map fun received =>
        if received.run.id = runId then received.advance input else received }
  | .erase workItemId sealKey => system.write { system.rows with
      works := system.rows.works.map fun row =>
        if row.id = workItemId then row.erase digests.sha256 sealKey else row }

end ReceiptSystem

/-- Admissions, runs and erasures in any order, from empty tables on. -/
def receiptMachine {φ : Type} (support : DigestSupport φ) (digests : ReceiptDigests) :
    Machine ReceiptSystem ReceiptOperation where
  initial system := system = { rows := ⟨[], []⟩, history := [⟨[], []⟩] }
  step system operation after :=
    system.seen digests support operation ∧ after = system.after digests operation

end MarketingAgents
