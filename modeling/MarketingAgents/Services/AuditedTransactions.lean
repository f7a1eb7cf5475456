import MarketingAgents.Services.ActionAudits
import MarketingAgents.Services.ServiceSoundness

namespace MarketingAgents

open Library

/-! # Transactions with the action events they append

A service asks the factory for the event of every mutation that it makes, and
appends the events in the transaction that makes them.
-/

/-- The events of a list of mutations, in order. -/
def eventsOf {α : Type} (events : α → Except Rejection (List ActionAudit)) :
    List α → Except Rejection (List ActionAudit)
  | [] => .ok []
  | first :: rest => do
      let own ← events first
      let others ← eventsOf events rest
      return own ++ others

/-- The row of an action, as a service reads it back after its mutation. -/
def Database.reload (db : Database) (actionId : String) : Except Rejection StoredAction :=
  requireSome (db.action? actionId) "approval_action_missing" "external action disappeared"

/-- The pristine row that registration inserts before the action waits for its approval. -/
def ExternalAction.proposal? (action : ExternalAction) : Option ExternalAction :=
  ExternalAction.ofRow? { action.toExternalActionRow with
    state := .proposed
    updatedAt := action.createdAt
    version := action.version - 1 }

def registrationEvents (epoch : ApprovalEpoch) : Except Rejection (List ActionAudit) :=
  eventsOf (fun (actionId, stored) => do
    let proposed ← requireSome stored.action.proposal? "ValueError"
      "proposed-action audit requires the pristine exact action"
    let first ← AuditEventFactory.actionProposed actionId proposed
    let second ← AuditEventFactory.actionAwaitingApproval actionId stored.action .proposed
    return [first, second]) epoch.actions.entries

/-- Only an expired approval reopens its action; an undecided request leaves it waiting. -/
def reopenedEvents (request : ApprovalRequest) (reopened : Database) :
    Except Rejection (List ActionAudit) := do
  if request.status = .approved then
    let updated ← reopened.reload request.actionId
    let event ← AuditEventFactory.actionAwaitingApproval request.actionId updated.action .approved
    return [event]
  else return []

namespace ApprovalRecordService

/-- Expire one leaf, or answer with the one that has expired already. -/
def markExpired (db : Database) (requestId : String) (expectedVersion : Nat) (expiredAt : Time) :
    Except Rejection Database := do
  let current ← requireSome (db.approvalRequests.get? requestId) "approval_request_missing"
    "approval expiration request does not exist"
  let stored ← requireSome (db.action? current.actionId) "approval_action_missing"
    "approval expiration lost its exact action"
  if current.status = .expired then
    require (expectedVersion = current.version ∨ expectedVersion + 1 = current.version)
      "approval_expiration_conflict"
      "expiration replay does not match the original approval version"
    return db
  else
    requireSome (db.markExpired requestId expectedVersion stored.action.version expiredAt)
      "approval_expiration_conflict" "approval request is not the expected expirable generation"

/-- The events of an expiry or a renewal of one request. -/
def expiryEvents (db after : Database) (requestId : String) :
    Except Rejection (List ActionAudit) := do
  let current ← requireSome (db.approvalRequests.get? requestId) "approval_request_missing"
    "approval expiration request does not exist"
  reopenedEvents current after

end ApprovalRecordService

namespace ApprovalBoundaryService

/-- The events of the members that a boundary expires one after the other. -/
def expiredEvents (expiredAt : Time) : List MemberRow → Database →
    Except Rejection (List ActionAudit)
  | [], _ => .ok []
  | row :: rest, db => do
      let stored ← requireSome (db.action? row.member.actionId) "approval_action_missing"
        "approval expiration lost its exact action"
      let expired ← requireSome (db.markExpired row.requestId row.request.version
        stored.action.version expiredAt) "approval_expiration_conflict"
        "approval expiry could not be persisted at the boundary"
      let current ← requireSome (db.approvalRequests.get? row.requestId) "approval_request_missing"
        "approval expiration request does not exist"
      let own ← reopenedEvents current expired
      let others ← expiredEvents expiredAt rest expired
      return own ++ others

/-- The single use that a release recorded for a request. -/
def useOfRequest (db : Database) (requestId : String) : Option (String × ApprovalUse) :=
  db.approvalUses.entries.find? fun entry => entry.2.requestId = requestId

def releaseEvents (snapshot : BoundarySnapshot) (released : Database) :
    Except Rejection (List ActionAudit) :=
  eventsOf (fun row => do
    let reserved ← released.reload row.member.actionId
    let consumed ← requireSome (released.approvalRequests.get? row.requestId) "ValueError"
      "dispatch-reserved audit requires one exact consumed approval leaf"
    let (useId, use) ← requireSome (useOfRequest released row.requestId) "ValueError"
      "dispatch-reserved audit requires one exact consumed approval leaf"
    let event ← AuditEventFactory.actionDispatchReserved row.member.actionId row.stored.action
      reserved.action row.requestId consumed useId use
    return [event]) snapshot.rows

/-- Only the members that the closure changed have an event. -/
def closureEvents (snapshot : BoundarySnapshot) (supersessionReason : String) (closed : Database) :
    Except Rejection (List ActionAudit) :=
  eventsOf (fun row => do
    let cancelled ← closed.reload row.member.actionId
    let terminal ← requireSome (closed.approvalRequests.get? row.requestId) "ValueError"
      "action-cancelled audit requires one exact terminal approval"
    if cancelled.action = row.stored.action then return []
    else
      let event ← AuditEventFactory.actionCancelled row.member.actionId row.stored.action
        cancelled.action row.requestId terminal supersessionReason
      return [event]) snapshot.rows

/-- The events of an open set that awaits its approvals, by what the evaluation did to it. -/
def openBoundaryEvents (db : Database) (snapshot : BoundarySnapshot) (now : Time)
    (after : Database) : Except Rejection (List ActionAudit) :=
  let stale := snapshot.rows.filter fun row =>
    row.request.status ∈ [.pending, .approved] ∧ row.request.expiresAt ≤ now
  if snapshot.rows.any (·.request.status = .rejected) then
    closureEvents snapshot "approval_set_rejected" after
  else if stale ≠ [] then expiredEvents now stale db
  else if snapshot.rows.any (·.request.status ≠ .approved) then .ok []
  else releaseEvents snapshot after

def evaluationEvents (db : Database) (now : Time) (after : Database) :
    Except Rejection (List ActionAudit) := do
  let snapshot ← loadCurrent db
  if snapshot.set.status = .open then openBoundaryEvents db snapshot now after else return []

/-- The event of an action that was cancelled before its provider call. -/
def runtimeCancelledEvents (cancellable : List (String × StoredAction)) (after : Database) :
    Except Rejection (List ActionAudit) :=
  eventsOf (fun (actionId, stored) => do
    let cancelled ← after.reload actionId
    let event ← AuditEventFactory.actionRuntimeCancelled actionId stored.action cancelled.action
    return [event]) cancellable

def cancellationEvents (db after : Database) : Except Rejection (List ActionAudit) := do
  let snapshot ← loadCurrent db
  if snapshot.set.status = .released then
    runtimeCancelledEvents ((snapshot.rows.filter fun row =>
        preCall row.stored.action).map fun row =>
      (row.member.actionId, row.stored)) after
  else closureEvents snapshot "run_cancelled" after

end ApprovalBoundaryService

/-- The decision as it stands before the boundary is evaluated, with its event. -/
def ApprovalDecisionService.decisionEvents (db : Database) (requestId decisionId : String)
    (approve : Bool) (decidedAt : Time) : Except Rejection (List ActionAudit × Database) := do
  let request ← requireSome (db.approvalRequests.get? requestId) "approval_request_missing"
    "approval request does not exist"
  let stored ← requireSome (db.action? request.actionId) "approval_action_missing"
    "approval action does not exist"
  let decided ← requireSome (db.recordDecision requestId decisionId approve request.version
    stored.action.version decidedAt) "approval_decision_conflict"
    "another decision won or the approval changed"
  let approval ← requireSome (decided.approvalRequests.get? requestId) "approval_request_missing"
    "approval request does not exist"
  let updated ← decided.reload request.actionId
  let event ← AuditEventFactory.actionDecided request.actionId stored.action
    updated.action requestId approval
  return ([event], decided)

/-- A decision is evaluated only while its run waits for the approvals. -/
def ApprovalDecisionService.decideEvents (db : Database) (requestId decisionId : String)
    (approve : Bool)
    (decidedAt : Time) (after : Database) : Except Rejection (List ActionAudit) := do
  let (own, decided) ← decisionEvents db requestId decisionId approve decidedAt
  if decided.run.state = .awaitingApproval ∧ decided.run.approvalRequired = some true then
    let boundary ← ApprovalBoundaryService.evaluationEvents decided decidedAt after
    return own ++ boundary
  else return own

/-- The events of a terminal cleanup: a transaction that failed its executing run. -/
def TerminalExecutionCleanupService.cleanupEvents (db : Database) (failedStepId : String)
    (focalActionId : Option String) (after : Database) : Except Rejection (List ActionAudit) := do
  if db.run.state = .executing ∧ after.run.state = .failed then
    let control ← requireSome db.control "terminal_cleanup_control_invalid"
      "terminal runtime cleanup lacks the exact sealed execution control"
    let actions ← planActions db control.policyHash failedStepId focalActionId
    ApprovalBoundaryService.runtimeCancelledEvents (cancellable actions focalActionId) after
  else return []

namespace ExternalActionDispatcher

/-- A claim and its call start are two mutations of one transaction. -/
def startEvents (dispatcher : Dispatcher) (db : Database) (actionId leaseOwner : String)
    (claimedAt : Time) (after : Database) : Except Rejection (List ActionAudit) := do
  let stored ← requireSome (db.action? actionId) "action_not_found" "external action does not exist"
  if stored.action.state = .succeeded then return []
  else
    let authority ← admission dispatcher db actionId stored.action
    let claimedDb ← requireSome
      (db.claimReserved (some stored) actionId stored.action.version authority
      leaseOwner claimedAt (claimedAt + dispatcher.leaseDuration)) "claim_cas_lost"
      "external action dispatch claim was not acquired"
    let claimed ← claimedDb.reload actionId
    let started ← after.reload actionId
    let first ← AuditEventFactory.actionDispatchClaimed actionId stored.action claimed.action
    let second ← AuditEventFactory.actionCallStarted actionId claimed.action started.action
    return [first, second]

def outcomeEvent (actionId : String) (previous completed : ExternalAction)
    (receiptReconciled : Bool) : Except Rejection ActionAudit :=
  match completed.state with
  | .succeeded =>
      if receiptReconciled then
        AuditEventFactory.actionReceiptReconciled actionId previous completed
      else AuditEventFactory.actionSucceeded actionId previous completed
  | .outcomeUnknown => AuditEventFactory.actionOutcomeUnknown actionId previous completed
  | _ => AuditEventFactory.actionFailed actionId previous completed

/-- The event of an outcome, before those of the cleanup that a failure begins with. -/
def conclusionEvents (db : Database) (actionId : String) (receiptReconciled : Bool)
    (after : Database) : Except Rejection (List ActionAudit) := do
  let previous ← requireSome (db.action? actionId) "action_not_found"
    "external action does not exist"
  let completed ← after.reload actionId
  let event ← outcomeEvent actionId previous.action completed.action receiptReconciled
  let cleanup ← TerminalExecutionCleanupService.cleanupEvents db previous.action.contract.stepId
    (some actionId) after
  return event :: cleanup

def StaleActionRecoveryDecision.retries : StaleActionRecoveryDecision → Bool
  | .retryPreCall | .retryProviderIdempotent => true
  | .failPreCallExhausted | .outcomeUnknown => false

/-- The recovery releases the action for another dispatch. -/
def releasesForRetry (snapshot : ExternalAction) (now : Time) : Bool :=
  (classifyStaleActionRecovery snapshot now).toOption.any StaleActionRecoveryDecision.retries

end ExternalActionDispatcher

/-- A transaction of a service, or the expiry of one request outside a boundary. -/
inductive AuditedTransaction where
  | service (transaction : ServiceTransaction)
  | expireApproval (requestId : String) (expectedVersion : Nat) (expiredAt : Time)

/-- The events about actions that a transaction of a service appends. -/
def ServiceTransaction.actionEvents (db after : Database) :
    ServiceTransaction → Except Rejection (List ActionAudit)
  | advanceRun .. | activate .. | advanceStep .. | executeLocal .. | cancelReadPlan ..
    | commitReceipt .. =>
      .ok []
  | persistPlan plan _ _ _ =>
      match plan.epoch with
      | none => .ok []
      | some epoch => registrationEvents epoch
  | evaluateApproval _ _ now => ApprovalBoundaryService.evaluationEvents db now after
  | decideApproval requestId decisionId approve _ _ decidedAt =>
      ApprovalDecisionService.decideEvents db requestId decisionId approve decidedAt after
  | renewApproval requestId _ _ _ _ => ApprovalRecordService.expiryEvents db after requestId
  | cancelWritePlan _ _ => ApprovalBoundaryService.cancellationEvents db after
  | reserveRead _ command _ _ =>
      TerminalExecutionCleanupService.cleanupEvents db command.stepId none after
  | completeRead _ _ stepId _ _ | denyRead _ stepId _ _ | recoverCancelledRead stepId _ =>
      TerminalExecutionCleanupService.cleanupEvents db stepId none after
  | startWrite dispatcher actionId leaseOwner claimedAt =>
      ExternalActionDispatcher.startEvents dispatcher db actionId leaseOwner claimedAt after
  | denyWrite actionId _ _ _ =>
      match db.action? actionId with
      | none => .ok []
      | some stored =>
        TerminalExecutionCleanupService.cleanupEvents db stored.action.contract.stepId none
          after
  | completeWrite _ actionId marked _ _ _ now | reconcileWrite _ actionId marked _ now =>
      ExternalActionDispatcher.conclusionEvents db actionId
        (ExternalActionDispatcher.lateReceipt marked now) after
  | failWrite actionId _ _ _ _ _ =>
    ExternalActionDispatcher.conclusionEvents db actionId false after
  -- A release for another attempt commits without an event.
  | recoverWrite actionId snapshot now =>
      if ExternalActionDispatcher.releasesForRetry snapshot now then .ok []
      else ExternalActionDispatcher.conclusionEvents db actionId false after
  | closeWrite _ actionId _ _ _ => ExternalActionDispatcher.conclusionEvents db actionId true after
  | failRun _ =>
      match RunWorker.failedStep db with
      | none => .ok []
      | some (stepId, _) => TerminalExecutionCleanupService.cleanupEvents db stepId none after

namespace AuditedTransaction

def Applies (db : Database) (transaction : AuditedTransaction) (after : Database) : Prop :=
  match transaction with
  | service transaction => transaction.Applies db after
  | expireApproval requestId expectedVersion expiredAt =>
      ApprovalRecordService.markExpired db requestId expectedVersion expiredAt = .ok after

def actionEvents (db after : Database) : AuditedTransaction → Except Rejection (List ActionAudit)
  | service transaction => transaction.actionEvents db after
  | expireApproval requestId _ _ => ApprovalRecordService.expiryEvents db after requestId

/-- The transaction releases a stale claim of an action for another attempt. -/
def releasesForRetry (actionId : String) : AuditedTransaction → Bool
  | service (.recoverWrite recovered snapshot now) =>
      recovered = actionId && ExternalActionDispatcher.releasesForRetry snapshot now
  | _ => false

end AuditedTransaction

/-- The rows of a run with the events about its actions, oldest first. -/
structure AuditedRun where
  rows : Database
  timeline : List ActionAudit

/-- Every interleaving of the services' transactions, each with the events it appends. -/
def auditedMachine : Machine AuditedRun AuditedTransaction where
  initial run := Received run.rows ∧ run.timeline = []
  step run transaction after := transaction.Applies run.rows after.rows ∧
    ∃ events, transaction.actionEvents run.rows after.rows = .ok events ∧
      after.timeline = run.timeline ++ events

end MarketingAgents
