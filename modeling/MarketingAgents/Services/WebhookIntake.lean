import MarketingAgents.Domain.DataClassification
import MarketingAgents.Domain.Webhook

namespace MarketingAgents

/-! # Authenticated webhook submissions

A submission is one transaction.  It is written statement by statement: every
statement reads what is committed at that instant together with what the
transaction wrote before.  Checks of stored rows that can only raise, and so
only abandon the transaction, are left to the abandonment of a transaction.
-/

structure AdmissionEnvelope where
  source : String
  eventId : String
  instanceId : String
  triggerId : String
  workflowId : String
  mode : WorkMode
  brief : Option (String × Nat)
  configurationRevision : Nat
  admittedPayload : String
deriving DecidableEq

structure WorkflowAdmissionSnapshot where
  catalogHash : String
  instanceId : String
  templateId : String
  instanceConfigurationRevision : Nat
  triggerId : String
  workflowId : String
  inputSchemaId : String
  inputSchemaHash : String
deriving DecidableEq

structure ValidatedIncomingWork where
  envelope : AdmissionEnvelope
  snapshot : WorkflowAdmissionSnapshot
  redactedInputProjection : String
  inputClassification : DataClassification
deriving DecidableEq

structure AdmissionDigests where
  inputDigest : String
  admissionDigest : String
  digestKeyVersion : String
deriving DecidableEq

/-- One admitted piece of work.  Its payloads stand in their canonical form. -/
structure WorkItem where
  id : String
  envelope : AdmissionEnvelope
  digests : AdmissionDigests
  createdAt : Time
  redactedInputProjection : String
  inputSchemaId : String
  inputSchemaHash : String
  inputClassification : DataClassification
  inputProjectionIntegrityDigest : String
deriving DecidableEq

/-- The identity of the run that a work item gets. -/
structure PrimaryRun where
  id : String
  workItemId : String
  catalogHash : String
  configurationRevision : Nat
  createdAt : Time
deriving DecidableEq

structure WebhookBodyDigest where
  value : String
  digestKeyVersion : String
deriving DecidableEq

/-- The keyed digests of the security library. -/
structure KeyedDigests where
  body : List UInt8 → String → WebhookBodyDigest
  admission : AdmissionEnvelope → String → AdmissionDigests
  projection : WorkItem → String → String

structure MappedWebhookEnvelope where
  eventId : String
  inputPayload : String
deriving DecidableEq

/-- An authenticated command with what its source definition made of it. -/
structure WebhookSubmission where
  source : String
  triggerId : String
  rawBody : List UInt8
  mapperVersion : String
  mapped : MappedWebhookEnvelope
  digestKey : String
  currentCatalogHash : String
  receivedAt : Time
deriving DecidableEq

/-- What a configuration row offers to a webhook source, with the validator of
its workflow. -/
structure WebhookTarget where
  workflowId : String
  configurationRevision : Nat
  mode : WorkMode
  validator : AdmissionEnvelope → Except Rejection ValidatedIncomingWork

structure WebhookAdmissionBinding extends WebhookTarget where
  source : String
  triggerId : String
  instanceId : String

inductive AdmissionDisposition where
  | created
  | replayed
deriving DecidableEq

structure WebhookAdmissionResult where
  receipt : WebhookReceipt
  disposition : AdmissionDisposition
deriving DecidableEq

structure WorkRunReceiptResult where
  workItem : WorkItem
  run : PrimaryRun
  disposition : AdmissionDisposition
deriving DecidableEq

/-- How a submission ended for its caller. -/
inductive IntakeOutcome where
  | answered (result : Except Rejection WebhookAdmissionResult)
  | unresolved (error : Rejection)
  | abandoned

namespace WorkItem

def sourceKey (work : WorkItem) : String × String × String :=
  (work.envelope.source, work.envelope.eventId, work.envelope.instanceId)

end WorkItem

namespace WebhookReceipt

def sourceEvent (receipt : WebhookReceipt) : String × String := (receipt.source, receipt.eventId)

end WebhookReceipt

structure IntakeRows where
  works : List WorkItem
  runs : List PrimaryRun
  receipts : List WebhookReceipt

namespace IntakeRows

variable (rows : IntakeRows)

def work? (id : String) : Option WorkItem := rows.works.find? fun work => work.id = id

def run? (id : String) : Option PrimaryRun := rows.runs.find? fun run => run.id = id

def workBySourceKey (source eventId instanceId : String) : Option WorkItem :=
  rows.works.find? fun work => work.sourceKey = (source, eventId, instanceId)

def runByWorkItem (workItemId : String) : Option PrimaryRun :=
  rows.runs.find? fun run => run.workItemId = workItemId

/-- A delivery with the work item and the run that it names, when both are there. -/
def joined (delivery : WebhookReceiptDelivery) :
    Option (WebhookReceiptDelivery × WorkItem × PrimaryRun) := do
  let work ← rows.work? delivery.workItemId
  let run ← rows.run? delivery.runId
  return (delivery, work, run)

def linked (receipt : WebhookReceipt) (delivery : WebhookReceiptDelivery) (work : WorkItem)
    (run : PrimaryRun) :
    Bool :=
  delivery.instanceId = work.envelope.instanceId && delivery.workItemId = work.id &&
    delivery.runId = run.id && work.envelope.source = receipt.source &&
    work.envelope.eventId = receipt.eventId && work.envelope.triggerId = receipt.triggerId &&
    run.workItemId = work.id && run.configurationRevision = work.envelope.configurationRevision

/-- A stored receipt is read with its deliveries joined to their rows. -/
def toDomain (record : WebhookReceipt) : Except Rejection WebhookReceipt := do
  let delivered := record.deliveries.filterMap rows.joined
  require (delivered ≠ []) "webhook_receipt_partial"
    "persisted webhook receipt has no complete delivery outcome"
  require (delivered.all fun (delivery, work, run) => linked record delivery work run)
    "webhook_receipt_tampered" "persisted webhook receipt is invalid or contradictory"
  ({ record with deliveries := delivered.map Prod.fst } : WebhookReceipt).build

def getBySourceEvent (source eventId : String) : Except Rejection (Option WebhookReceipt) :=
  match rows.receipts.find? fun receipt => receipt.sourceEvent = (source, eventId) with
  | none => .ok none
  | some record => some <$> rows.toDomain record

def conflictsWork (candidate : WorkItem) : Bool :=
  rows.works.any fun work => work.id = candidate.id || work.sourceKey = candidate.sourceKey

def conflictsRun (candidate : PrimaryRun) : Bool :=
  rows.runs.any fun run => run.id = candidate.id || run.workItemId = candidate.workItemId

def conflictsReceipt (candidate : WebhookReceipt) : Bool :=
  rows.receipts.any fun receipt => receipt.id = candidate.id ||
    receipt.sourceEvent = candidate.sourceEvent ||
    receipt.deliveries.any fun delivery => candidate.deliveries.any fun other =>
      delivery.workItemId = other.workItemId || delivery.runId = other.runId

def append (added : IntakeRows) : IntakeRows where
  works := rows.works ++ added.works
  runs := rows.runs ++ added.runs
  receipts := rows.receipts ++ added.receipts

end IntakeRows

namespace WebhookAdmissionBinding

def bind (target : WebhookTarget) (submission : WebhookSubmission) (instanceId : String) :
    WebhookAdmissionBinding :=
  { target with source := submission.source, triggerId := submission.triggerId, instanceId }

def envelope (binding : WebhookAdmissionBinding) (mapped : MappedWebhookEnvelope) :
    AdmissionEnvelope where
  source := binding.source
  eventId := mapped.eventId
  instanceId := binding.instanceId
  triggerId := binding.triggerId
  workflowId := binding.workflowId
  mode := binding.mode
  brief := none
  configurationRevision := binding.configurationRevision
  admittedPayload := mapped.inputPayload

/-- A validator issues work for the very envelope that it was asked about. -/
def validate (binding : WebhookAdmissionBinding) (mapped : MappedWebhookEnvelope) :
    Except Rejection ValidatedIncomingWork := do
  let issued ← binding.validator (binding.envelope mapped)
  return { issued with envelope := binding.envelope mapped }

end WebhookAdmissionBinding

namespace ValidatedIncomingWork

/-- The marker still agrees with the snapshot that was issued with it. -/
def parts (incoming : ValidatedIncomingWork) : Except Rejection Unit :=
  require (incoming.snapshot.instanceId = incoming.envelope.instanceId ∧
      incoming.snapshot.triggerId = incoming.envelope.triggerId ∧
      incoming.snapshot.workflowId = incoming.envelope.workflowId ∧
      incoming.snapshot.instanceConfigurationRevision = incoming.envelope.configurationRevision)
    "admission_snapshot_invalid"
      "incoming work no longer matches its validator-issued admission snapshot"

end ValidatedIncomingWork

namespace WebhookSubmission

variable (submission : WebhookSubmission)

def sourceEvent : String × String := (submission.source, submission.mapped.eventId)

variable (digests : KeyedDigests)

def bodyDigest : WebhookBodyDigest := digests.body submission.rawBody submission.digestKey

/-- Whether a stored receipt answers the submission exactly.  Another key or
another mapper leaves the question open. -/
def classifyExisting (existing : WebhookReceipt) : Except Rejection Bool := do
  require (existing.digestKeyVersion = (submission.bodyDigest digests).digestKeyVersion)
    "webhook_digest_key_mismatch" "webhook admission is temporarily unavailable"
  require (existing.mapperVersion = submission.mapperVersion)
    "webhook_mapper_version_mismatch" "webhook admission is temporarily unavailable"
  return existing.triggerId = submission.triggerId &&
    existing.bodyDigest = (submission.bodyDigest digests).value

def idempotencyConflict : Rejection where
  code := "webhook_idempotency_conflict"
  message := "authenticated event identity is already bound to a different body"

/-- What a submission is answered when its source event has a receipt. -/
def replay (existing : WebhookReceipt) : Except Rejection WebhookAdmissionResult := do
  let exact ← submission.classifyExisting digests existing
  if exact then return { receipt := existing, disposition := .replayed }
  .error idempotencyConflict

/-- The work item that an admission inserts. -/
def workItem (incoming : ValidatedIncomingWork) (id : String) (now : Time) : WorkItem :=
  let candidate : WorkItem := {
    id
    envelope := incoming.envelope
    digests := digests.admission incoming.envelope submission.digestKey
    createdAt := now
    redactedInputProjection := incoming.redactedInputProjection
    inputSchemaId := incoming.snapshot.inputSchemaId
    inputSchemaHash := incoming.snapshot.inputSchemaHash
    inputClassification := incoming.inputClassification
    inputProjectionIntegrityDigest := "" }
  { candidate with
    inputProjectionIntegrityDigest := digests.projection candidate submission.digestKey }

/-- The work that is already there may stand for the work to be admitted. -/
def replayWork (existing candidate : WorkItem) : Except Rejection Unit := do
  require (existing.digests.digestKeyVersion = candidate.digests.digestKeyVersion)
    "digest_key_version_mismatch" "existing work was admitted under a different digest key version"
  require (existing.inputProjectionIntegrityDigest =
    digests.projection existing submission.digestKey) "input_projection_integrity_mismatch"
    "existing work has an invalid admitted-input projection integrity binding"
  require (existing.digests.inputDigest = candidate.digests.inputDigest ∧
      existing.digests.admissionDigest = candidate.digests.admissionDigest) "idempotency_conflict"
    "source event identity is already bound to different admitted work"
  require (existing.inputSchemaId = candidate.inputSchemaId ∧
    existing.inputSchemaHash = candidate.inputSchemaHash)
    "input_projection_schema_mismatch" "existing work is bound to a different input schema identity"
  require (existing.inputClassification = candidate.inputClassification ∧
      existing.redactedInputProjection = candidate.redactedInputProjection)
        "input_projection_mismatch"
    "existing work has a different redacted admitted-input projection"

/-- Insert the work item or find the one that has its source key. -/
def admitInUow (rows : IntakeRows) (candidate : WorkItem) :
    Except Rejection (WorkItem × AdmissionDisposition) := do
  if rows.conflictsWork candidate then
    let existing ← requireSome
      (rows.workBySourceKey candidate.envelope.source candidate.envelope.eventId
      candidate.envelope.instanceId) "IntegrityError" "work item"
    submission.replayWork digests existing candidate
    return (existing, .replayed)
  return (candidate, .created)

/-- The current catalog is the one that the work was validated against. -/
def requireCurrentSnapshot (incoming : ValidatedIncomingWork) : Except Rejection Unit := do
  incoming.parts
  require (incoming.snapshot.catalogHash = submission.currentCatalogHash) "catalog_drift"
    "incoming work was not validated against the current catalog release"

end WebhookSubmission

/-- Insert the run of a work item or find the one that it has. -/
def receiveRun (rows : IntakeRows) (candidate : PrimaryRun) :
    Except Rejection (PrimaryRun × AdmissionDisposition) := do
  if rows.conflictsRun candidate then
    let existing ← requireSome (rows.runByWorkItem candidate.workItemId) "IntegrityError" "run"
    return (existing, .replayed)
  return (candidate, .created)

/-- A work item and its run are created or replayed together. -/
def receiptResult (incoming : ValidatedIncomingWork) (admitted : WorkItem × AdmissionDisposition)
    (received : PrimaryRun × AdmissionDisposition) : Except Rejection WorkRunReceiptResult := do
  require (admitted.2 = received.2) "mixed_receipt_disposition"
    "WorkItem and primary Run must be created or replayed together"
  require (received.1.workItemId = admitted.1.id ∧
      received.1.configurationRevision = admitted.1.envelope.configurationRevision ∧
      (received.2 = .created → received.1.catalogHash = incoming.snapshot.catalogHash))
    "receipt_correlation_mismatch" "primary Run does not bind the authoritative admitted WorkItem"
  return { workItem := admitted.1, run := received.1, disposition := admitted.2 }

def WorkRunReceiptResult.delivery (result : WorkRunReceiptResult) : WebhookReceiptDelivery where
  instanceId := result.workItem.envelope.instanceId
  workItemId := result.workItem.id
  runId := result.run.id

/-- Insert a receipt with its deliveries, or find the one that its source event has. -/
def IntakeRows.addOrGet (rows : IntakeRows) (candidate : WebhookReceipt) :
    Except Rejection (WebhookReceipt × Bool) := do
  if rows.conflictsReceipt candidate then
    let found ← rows.getBySourceEvent candidate.source candidate.eventId
    let existing ← requireSome found "webhook_receipt_insert_conflict"
      "webhook receipt conflicted outside its source-event identity"
    return (existing, false)
  let stored ← IntakeRows.toDomain { rows with receipts := rows.receipts ++ [candidate] } candidate
  return (stored, true)

def requireInsertOutcome (candidate stored : WebhookReceipt) (received : List WorkRunReceiptResult)
    (inserted : Bool) : Except Rejection Unit := do
  require (received.all fun item => item.disposition = if inserted then .created else .replayed)
    "webhook_receipt_mixed" "webhook receipt state is incomplete"
  if inserted then
    require (stored = candidate) "webhook_receipt_invalid" "webhook receipt state is invalid"
  else
    require (stored.source = candidate.source ∧ stored.eventId = candidate.eventId ∧
        stored.triggerId = candidate.triggerId ∧ stored.bodyDigest = candidate.bodyDigest ∧
        stored.digestKeyVersion = candidate.digestKeyVersion ∧
        stored.mapperVersion = candidate.mapperVersion ∧ stored.deliveries = candidate.deliveries)
      "webhook_receipt_conflict" "webhook receipt state conflicts with admitted work"

/-- What a submission does next. -/
inductive IntakeStage where
  | reading
  | resolving (pending : List String)
  | rereading
  | validating
  | checking (pending : List WebhookAdmissionBinding) (validated : List ValidatedIncomingWork)
  | admitting (pending : List ValidatedIncomingWork) (received : List WorkRunReceiptResult)
  | receiving (incoming : ValidatedIncomingWork) (admitted : WorkItem × AdmissionDisposition)
      (pending : List ValidatedIncomingWork) (received : List WorkRunReceiptResult)
  | recording (received : List WorkRunReceiptResult)
  | committing (outcome : IntakeOutcome)
  | raising (error : Rejection)

/-- An open submission with its locks and its writes. -/
structure IntakeTransaction where
  submission : WebhookSubmission
  arrived : List WebhookReceipt
  locks : List String
  bindings : List WebhookAdmissionBinding
  written : IntakeRows
  stage : IntakeStage

/-- What a statement gets from outside: what the locked configuration row offers,
a fresh identifier and the time. -/
structure IntakeInput where
  target : Except Rejection (Option WebhookTarget)
  id : String
  now : Time

namespace IntakeTransaction

variable (transaction : IntakeTransaction) (digests : KeyedDigests) (view : IntakeRows)
  (input : IntakeInput)

def move (stage : IntakeStage) : IntakeTransaction := { transaction with stage }

/-- Read the receipt of the source event and classify it when there is one. -/
def readExisting (absent : IntakeStage) : IntakeTransaction :=
  match view.getBySourceEvent transaction.submission.source
    transaction.submission.mapped.eventId with
  | .error error => transaction.move (.raising error)
  | .ok none => transaction.move absent
  | .ok (some existing) =>
      match transaction.submission.classifyExisting digests existing with
      | .error error => transaction.move (.raising error)
      | .ok true => transaction.move
          (.committing (.answered (.ok { receipt := existing, disposition := .replayed })))
      | .ok false => transaction.move
          (.committing (.answered (.error WebhookSubmission.idempotencyConflict)))

/-- Lock one configuration row and take what it offers. -/
def resolveRow (instanceId : String) (pending : List String) : IntakeTransaction :=
  let locked := { transaction with locks := transaction.locks ++ [instanceId] }
  match input.target with
  | .error error => locked.move (.committing (.unresolved error))
  | .ok none => locked.move (.resolving pending)
  | .ok (some target) => { locked with
      bindings := locked.bindings ++ [.bind target transaction.submission instanceId]
      stage := .resolving pending }

def validateAll : IntakeTransaction :=
  if transaction.bindings = [] then
    transaction.move (.raising {
      code := "webhook_binding_unavailable", message :=
        "webhook admission binding is unavailable" })
  else
    match transaction.bindings.mapM (·.validate transaction.submission.mapped) with
    | .error error => transaction.move (.committing (.answered (.error error)))
    | .ok validated => transaction.move (.checking transaction.bindings validated)

def checkAbsent (binding : WebhookAdmissionBinding) (pending : List WebhookAdmissionBinding)
    (validated : List ValidatedIncomingWork) : IntakeTransaction :=
  match view.workBySourceKey transaction.submission.source transaction.submission.mapped.eventId
      binding.instanceId with
  | some _ => transaction.move (.raising {
      code := "webhook_receipt_missing", message := "webhook receipt state is incomplete" })
  | none => transaction.move (.checking pending validated)

def admission (incoming : ValidatedIncomingWork) :
    Except Rejection (WorkItem × AdmissionDisposition) := do
  transaction.submission.requireCurrentSnapshot incoming
  transaction.submission.admitInUow digests view
    (transaction.submission.workItem digests incoming input.id input.now)

def admitNext (incoming : ValidatedIncomingWork) (pending : List ValidatedIncomingWork)
    (received : List WorkRunReceiptResult) : IntakeTransaction :=
  match transaction.admission digests view input incoming with
  | .error error => transaction.move (.raising error)
  | .ok (work, .created) => { transaction with
      written := { transaction.written with works := transaction.written.works ++ [work] }
      stage := .receiving incoming (work, .created) pending received }
  | .ok (work, .replayed) =>
      transaction.move (.receiving incoming (work, .replayed) pending received)

def reception (incoming : ValidatedIncomingWork) (admitted : WorkItem × AdmissionDisposition) :
    Except Rejection WorkRunReceiptResult := do
  let candidate : PrimaryRun := {
    id := input.id
    workItemId := admitted.1.id
    catalogHash := incoming.snapshot.catalogHash
    configurationRevision := admitted.1.envelope.configurationRevision
    createdAt := input.now }
  let run ← receiveRun view candidate
  receiptResult incoming admitted run

def receiveNext (incoming : ValidatedIncomingWork) (admitted : WorkItem × AdmissionDisposition)
    (pending : List ValidatedIncomingWork) (received : List WorkRunReceiptResult) :
      IntakeTransaction :=
  match reception view input incoming admitted with
  | .error error => transaction.move (.raising error)
  | .ok ⟨work, run, .created⟩ => { transaction with
      written := { transaction.written with runs := transaction.written.runs ++ [run] }
      stage := .admitting pending (received ++ [⟨work, run, .created⟩]) }
  | .ok result => transaction.move (.admitting pending (received ++ [result]))

def receipt (received : List WorkRunReceiptResult) : WebhookReceipt where
  id := input.id
  source := transaction.submission.source
  eventId := transaction.submission.mapped.eventId
  triggerId := transaction.submission.triggerId
  bodyDigest := (transaction.submission.bodyDigest digests).value
  digestKeyVersion := (transaction.submission.bodyDigest digests).digestKeyVersion
  mapperVersion := transaction.submission.mapperVersion
  receivedAt := transaction.submission.receivedAt
  deliveries := received.map (·.delivery)

def recording (received : List WorkRunReceiptResult) :
    Except Rejection (WebhookReceipt × Bool) := do
  let candidate ← (transaction.receipt digests input received).build
  let inserted ← view.addOrGet candidate
  requireInsertOutcome candidate inserted.1 received inserted.2
  return inserted

def record (received : List WorkRunReceiptResult) : IntakeTransaction :=
  match transaction.recording digests view input received with
  | .error error => transaction.move (.raising error)
  | .ok (stored, true) => { transaction with
      written := { transaction.written with receipts := transaction.written.receipts ++ [stored] }
      stage := .committing (.answered (.ok { receipt := stored, disposition := .created })) }
  | .ok (stored, false) => transaction.move
      (.committing (.answered (.ok { receipt := stored, disposition := .replayed })))

/-- The next statement of a submission. -/
def resume (instances : List String) : IntakeTransaction :=
  match transaction.stage with
  | .reading => transaction.readExisting digests view (.resolving instances)
  | .resolving (instanceId :: pending) => transaction.resolveRow input instanceId pending
  | .resolving [] =>
      if transaction.bindings = [] then
        transaction.move (.committing (.unresolved {
          code := "webhook_binding_forbidden"
          message := "webhook source is not bound to an enabled agent instance" }))
      else transaction.move .rereading
  | .rereading => transaction.readExisting digests view .validating
  | .validating => transaction.validateAll
  | .checking (binding :: pending) validated =>
      transaction.checkAbsent view binding pending validated
  | .checking [] validated => transaction.move (.admitting validated [])
  | .admitting (incoming :: pending) received =>
      transaction.admitNext digests view input incoming pending received
  | .admitting [] received => transaction.move (.recording received)
  | .receiving incoming admitted pending received =>
      transaction.receiveNext view input incoming admitted pending received
  | .recording received => transaction.record digests view input received
  | .committing _ | .raising _ => transaction

/-- The configuration row that the next statement locks. -/
def wants : Option String :=
  match transaction.stage with
  | .resolving (instanceId :: _) => some instanceId
  | _ => none

end IntakeTransaction

end MarketingAgents
