import MarketingAgents.Services.TerminalExecutionCleanup

namespace MarketingAgents

open Library

/-! # The external-action dispatcher

Every definition is one database transaction of the dispatcher.  The provider
call lies between two of them and holds no transaction open.
-/

/-- What a dispatcher is built with.  The write guard, the connector contract
and the byte limits only look at the sealed envelope of an action. -/
structure Dispatcher where
  leaseDuration : Time
  authorize : String → ExternalAction → Except Rejection Unit
  contractFor : ExternalAction → Except Rejection Unit
  inputWithinBudget : ExternalAction → RunStep → Except Rejection Unit
  projectOutput : String → RunStep → String

structure DispatchCallStart where
  action : ExternalAction
  permit : Option DeliveryCallPermit
deriving DecidableEq

inductive DispatchDisposition where
  | succeeded
  | alreadySucceeded
  | failed
  | outcomeUnknown
  | recoveryPending
  | lostClaim
  | requeued
deriving DecidableEq, Repr

/-- The outcome under which a dispatch attempt is closed together with its step. -/
inductive WriteOutcome where
  | succeeded (result : ExternalActionResultSnapshot) (receiptReconciled : Bool)
  | failed (reasonCode : String)
  | outcomeUnknown (reasonCode : String)
  | preCallExhausted
deriving DecidableEq

namespace WriteOutcome

/-- The reason of an outcome that is not a success. -/
def reasonCode : WriteOutcome → Option String
  | succeeded _ _ => none
  | failed reasonCode => some reasonCode
  | outcomeUnknown reasonCode => some reasonCode
  | preCallExhausted => some "pre_call_attempts_exhausted"

def eventType : WriteOutcome → ActionEventType
  | succeeded _ true => .receiptReconciled
  | succeeded _ false => .succeeded
  | failed _ => .failed
  | outcomeUnknown _ => .outcomeUnknown
  | preCallExhausted => .failed

/-- The step command of an outcome. -/
def stepCommand (outcome : WriteOutcome) : StepLifecycleCommand × StepTransitionContext :=
  match outcome.reasonCode with
  | none => (.succeed, .none)
  | some reasonCode => (.fail, .terminal reasonCode)

/-- The step states an outcome may be recorded in. -/
def stepStates : WriteOutcome → List StepState
  | preCallExhausted => [.ready, .executing]
  | _ => [.executing]

/-- The outcome of a started call, or of a lease that expired before its call. -/
def fitsCall (outcome : WriteOutcome) (call : Option CallAuthority) (occurredAt : Time) : Bool :=
  match outcome with
  | succeeded result _ => call.isSome && result.completedAt = occurredAt
  | preCallExhausted => call = none
  | _ => call.isSome

end WriteOutcome

namespace ExternalActionDispatcher

def dispatchAuditContext (leaseOwner : String) (action : ExternalAction) : AuditContext where
  actorId := leaseOwner
  correlationId := "dispatch-attempt." ++ toString action.deliveryAttemptCount ++ "." ++
    String.ofList (action.contract.actionHash.toList.take 32)

def actionEvent (type : ActionEventType) (actionId : String)
    (action : ExternalAction) : AuditEvent :=
  .actionMutation type actionId action.version action.terminalReasonCode action.updatedAt

def requireAuthority (actionId : String) (action : ExternalAction) (authority : ReleaseAuthority) :
    Except Rejection Unit := do
  let reservation ← requireSome action.reservation "release_authority_mismatch"
    "committed release authority differs from the action reservation"
  require (authority.actionId = actionId ∧ authority.actionHash = action.contract.actionHash ∧
      authority.runId = action.contract.runId ∧ authority.stepId = action.contract.stepId ∧
      authority.stepKey = action.contract.stepKey ∧
      authority.authorizationSetId = reservation.authorizationSetId ∧
      authority.reservationId = reservation.reservationId ∧
      authority.approvalRequestId = reservation.approvalRequestId ∧
      authority.approvalDecisionId = reservation.approvalDecisionId ∧
      authority.actionHash = reservation.actionHash) "release_authority_mismatch"
    "committed release authority differs from the action reservation"

/-- The released step is the validated step of the sealed plan. -/
def validatedStep (db : Database) (action : ExternalAction) (authority : ReleaseAuthority) :
    Except Rejection RunStep := do
  let step ← requireSome (db.step? authority.stepId) "execution_plan_mismatch"
    "released WRITE step differs from its sealed execution plan"
  require (step.key = authority.stepKey ∧ step.state = authority.stepState ∧
      step.version = authority.stepVersion ∧ step.planHash = action.contract.planHash)
    "execution_plan_mismatch" "released WRITE step differs from its sealed execution plan"
  return step

def callStartStepTransition (db : Database) (authority : ReleaseAuthority) (startedAt : Time) :
    Except Rejection (Option StepTransitionResult) := do
  match authority.callMode with
  | .providerRetry =>
      require (authority.stepState = .executing ∧
          authority.stepVersion = authority.releasedStepVersion + 1 ∧
          authority.priorStartedAttemptNumber ≠ none) "release_authority_mismatch"
        "provider retry lacks its exact prior call-start step witness"
      return none
  | .firstCall =>
      require (authority.stepState = .ready ∧
          authority.stepVersion = authority.releasedStepVersion ∧
          authority.priorStartedAttemptNumber = none) "release_authority_mismatch"
        "first call lacks its exact released ready step"
      let step ← requireSome (db.step? authority.stepId) "release_authority_mismatch"
        "released write step changed before connector call-start"
      require (step.state = authority.stepState ∧ step.version = authority.stepVersion ∧
          step.key = authority.stepKey) "release_authority_mismatch"
        "released write step changed before connector call-start"
      let result ← transitionStep authority.stepId step .startReservedWrite .none startedAt
      return some result

/-- Everything that is checked before a dispatch claim is attempted. -/
def admission (dispatcher : Dispatcher) (db : Database) (actionId : String)
    (action : ExternalAction) : Except Rejection ReleaseAuthority := do
  require (action.state = .dispatchReserved) "action_not_dispatchable"
    "external action is not dispatch reserved"
  let _ ← requireSome action.reservation "reservation_missing"
    "external action lacks durable approval reservation"
  dispatcher.authorize actionId action
  dispatcher.contractFor action
  let authority ← requireSome (db.getReleaseAuthority actionId) "release_authority_missing"
    "external action lacks its exact committed release authority"
  requireAuthority actionId action authority
  require (db.run.state = .executing ∧ db.run.approvalRequired = some true ∧
      db.run.version = authority.releasedRunVersion) "run_not_executing"
    "parent Run does not permit external effects"
  let step ← validatedStep db action authority
  dispatcher.inputWithinBudget action step
  return authority

/-- Claim an admitted action, charge its call and mark the call as started. -/
def startAdmitted (dispatcher : Dispatcher) (db : Database) (actionId leaseOwner : String)
    (stored : StoredAction) (authority : ReleaseAuthority) (claimedAt : Time) :
    Except Rejection (DispatchCallStart × Database) := do
  let claimedDb ← requireSome
    (db.claimReserved (some stored) actionId stored.action.version authority
    leaseOwner claimedAt (claimedAt + dispatcher.leaseDuration)) "claim_cas_lost"
    "external action dispatch claim was not acquired"
  let claimed ← requireSome (claimedDb.action? actionId) "claim_cas_lost"
    "external action dispatch claim was not acquired"
  let control ← requireSome claimedDb.control "execution_control_invalid"
    "external action lacks its exact sealed execution control"
  require (control.policyHash = stored.action.contract.planHash) "execution_control_invalid"
    "external action lacks its exact sealed execution control"
  let (permit, permittedDb) ← claimedDb.reserveDeliveryCall {
    stepId := claimed.action.contract.stepId
    actionId
    deliveryAttemptNumber := claimed.action.deliveryAttemptCount
    expectedControlVersion := control.version
    expectedStepVersion := authority.stepVersion
    expectedActionVersion := claimed.action.version
    reservedAt := claimedAt }
  let stepTransition ← callStartStepTransition permittedDb authority claimedAt
  let startedDb ← requireSome (permittedDb.markCallStarted (permittedDb.action? actionId) actionId
    claimed.action.version authority leaseOwner claimed.action.deliveryAttemptCount claimedAt
    permit.callDeadlineAt stepTransition) "call_start_cas_lost"
    "external action call-start transaction was not acquired"
  let started ← requireSome (startedDb.action? actionId) "call_start_cas_lost"
    "external action call-start transaction was not acquired"
  return ({ action := started.action, permit := some permit },
    startedDb.appendAudits ([actionEvent .dispatchClaimed actionId claimed.action,
      actionEvent .callStarted actionId started.action] ++ stepEvents stepTransition.toList))

/-- Atomically claim, admit, and persist the exact pre-provider call marker. -/
def claimAndMarkCallStarted (dispatcher : Dispatcher) (db : Database) (actionId leaseOwner : String)
    (claimedAt : Time) : Except Rejection (DispatchCallStart × Database) := do
  let stored ← requireSome (db.action? actionId) "action_not_found" "external action does not exist"
  require (db.workMode ≠ .dryRun) "dry_run_external_effect_forbidden"
    "dry-run work cannot dispatch an external effect"
  if stored.action.state = .succeeded then
    return ({ action := stored.action, permit := none }, db)
  else
    let authority ← admission dispatcher db actionId stored.action
    startAdmitted dispatcher db actionId leaseOwner stored authority claimedAt

def safeAuditRetryAfter (value : Option Nat) : Option Nat :=
  value.filter fun seconds => 1 ≤ seconds ∧ seconds ≤ 3600

/-- Persist a denial witness in a fresh transaction after admission rollback. -/
def recordRuntimeControlDenial (db : Database) (actionId leaseOwner : String) (error : Rejection)
    (occurredAt : Time) : Except Rejection Database := do
  if error.code ∉ runtimeControlDenialCodes then return db
  else
    match db.action? actionId with
    | none => return db
    | some stored =>
        let stepId := stored.action.contract.stepId
        let step ← requireSome (db.step? stepId) "RuntimeError"
          "runtime-control denial action binding is corrupt"
        let denial : RuntimeControlDenial := {
          context := dispatchAuditContext leaseOwner stored.action
          stepId
          actionId := some actionId
          operationKey := step.runtimePolicy.operationKey
          denialCode := error.code }
        let event := AuditEvent.runtimeControlDenied denial
          (safeAuditRetryAfter error.retryAfterSeconds) occurredAt
        let existing := db.denialRecorded denial
        let events := if existing then [] else [event]
        if error.code ∈ terminalRuntimeControlDenialCodes ∧ db.run.state = .executing then
          let (cleanup, after) ← TerminalExecutionCleanupService.failRuntimeControl db stepId
            stored.action.contract.planHash error.code occurredAt
          return after.appendAudits (events ++ cleanup.auditEvents)
        else return db.appendAudits events

/-- The WRITE step of an action, as its sealed plan has it. -/
def sealedWriteStep (db : Database) (action : ExternalAction) : Except Rejection RunStep := do
  let step ← requireSome (db.step? action.contract.stepId) "execution_plan_mismatch"
    "external action output differs from its sealed WRITE step"
  require (step.planHash = action.contract.planHash ∧ step.key = action.contract.stepKey ∧
      step.effect = .write) "execution_plan_mismatch"
    "external action output differs from its sealed WRITE step"
  return step

def writeCompletionContext (db : Database) (action : ExternalAction) (stepStates : List StepState) :
    Except Rejection RunStep := do
  let step ← sealedWriteStep db action
  require (db.run.state ∈ [.executing, .cancelled, .failed, .rejected] ∧ step.state ∈ stepStates)
    "write_completion_context_invalid"
    "external action lacks its exact completable WRITE step and parent Run"
  return step

/-- The repository operation that records an outcome. -/
def concludeAction (db : Database) (actionId : String) (previous : ExternalAction)
    (lease : DispatchLease) (outcome : WriteOutcome) (occurredAt : Time) : Option Database :=
  match outcome with
  | .succeeded result _ =>
      db.completeSucceeded actionId previous.version lease.owner lease.attemptNumber result
  | .failed reasonCode =>
      db.completeFailed actionId previous.version lease.owner lease.attemptNumber
        reasonCode occurredAt
  | .outcomeUnknown reasonCode =>
      db.markOutcomeUnknown actionId previous.version lease.owner lease.attemptNumber reasonCode
        occurredAt
  | .preCallExhausted =>
      db.failExhaustedStalePreCall actionId previous.version lease.attemptNumber occurredAt
        "pre_call_attempts_exhausted"

/-- A failure under an executing run closes the rest of the run first. -/
def cleanupBeforeFailure (db : Database) (actionId : String) (step : RunStep) (stepId : String)
    (outcome : WriteOutcome) (occurredAt : Time) :
    Except Rejection (Option TerminalCleanup × Database) := do
  match outcome.reasonCode with
  | none => return (none, db)
  | some reasonCode =>
      if db.run.state = .executing then
        let (cleanup, after) ← TerminalExecutionCleanupService.failOrdinary db stepId step.planHash
          reasonCode occurredAt (some actionId)
        return (some cleanup, after)
      else return (none, db)

/-- Atomically close one dispatch attempt and its exact active WRITE step. -/
def finalizeWriteOutcome (db : Database) (actionId : String) (previous : ExternalAction)
    (step : RunStep) (leaseOwner : String) (outcome : WriteOutcome) (occurredAt : Time) :
    Except Rejection Database := do
  let run := db.run
  let stepId := previous.contract.stepId
  let lease ← requireSome previous.lease "write_completion_context_invalid"
    "external action completion differs from its exact WRITE authority"
  require (previous.state = .dispatching ∧ lease.owner = leaseOwner ∧
      lease.attemptNumber = previous.deliveryAttemptCount ∧
      run.state ∈ [.executing, .cancelled, .failed, .rejected] ∧
      step.planHash = previous.contract.planHash ∧ step.effect = .write ∧
      step.state ∈ outcome.stepStates ∧ outcome.fitsCall previous.call occurredAt)
    "write_completion_context_invalid"
    "external action completion differs from its exact WRITE authority"
  let (cleanup, cleaned) ← cleanupBeforeFailure db actionId step stepId outcome occurredAt
  let concluded ← requireSome (concludeAction cleaned actionId previous lease outcome occurredAt)
    "completion_cas_lost" "connector returned but the durable action completion was not accepted"
  let (command, context) := outcome.stepCommand
  let stepTransition ← transitionStep stepId step command context occurredAt
  let completed ← requireSome (concluded.action? actionId) "completion_cas_lost"
    "connector returned but the durable action completion was not accepted"
  require (completed.action.updatedAt = stepTransition.step.updatedAt)
    "write_completion_time_invalid" "external action and WRITE step completion times diverged"
  let event := actionEvent outcome.eventType actionId completed.action
  match cleanup with
  | some cleanup =>
      require (cleanup.deniedStep = stepTransition.step) "write_completion_step_conflict"
        "terminal cleanup differs from the focal WRITE step conclusion"
      return concluded.appendAudits (event :: cleanup.auditEvents)
  | none =>
      let after ← requireSome (concluded.applyStepTransition run.version run.state step.version
        step.state stepTransition) "write_completion_step_conflict"
        "WRITE step changed before its external action outcome was committed"
      return after.appendAudits [event, .stepTransition stepTransition.transition]

/-- The action is still the one a worker had read. -/
def requireUnchanged (db : Database) (actionId : String) (snapshot : ExternalAction) :
    Except Rejection Unit := do
  let current ← requireSome (db.action? actionId) "action_not_found"
    "external action does not exist"
  require (current.action = snapshot) "dispatch_result_changed"
    "external action changed before its outcome was recorded"

/-- The durable receipt of an action, refused when it belongs to something else. -/
def authoritativeReceipt (db : Database) (actionId : String) (action : ExternalAction) :
    Except Rejection (Option ConnectorActionReceipt) := do
  match db.receipts.get? (action.contract.bindingId, action.contract.idempotencyKey) with
  | none => return none
  | some receipt =>
      require (receipt.externalActionId = actionId ∧
          receipt.actionHash = action.contract.actionHash ∧
          receipt.capabilityId = action.contract.capabilityId) "receipt_identity_corrupt"
        "durable connector receipt does not match the exact action"
      return some receipt

def receiptResult (dispatcher : Dispatcher) (receipt : ConnectorActionReceipt) (step : RunStep)
    (completedAt : Time) : ExternalActionResultSnapshot where
  receiptId := receipt.receiptId
  status := receipt.status
  safeMetadata := dispatcher.projectOutput receipt.safeMetadata step
  completedAt

/-- The provider call had outlived its authority when its receipt was recorded. -/
def lateReceipt (action : ExternalAction) (completedAt : Time) : Bool :=
  action.call.any fun call => call.deadlineAt ≤ completedAt

/-- Record a connector's answer, which has to be backed by its durable receipt. -/
def completeDelivery (dispatcher : Dispatcher) (db : Database) (actionId : String)
    (marked : ExternalAction) (leaseOwner receiptId status : String) (now : Time) :
    Except Rejection Database := do
  requireUnchanged db actionId marked
  let step ← writeCompletionContext db marked [.executing]
  let receipt ← requireSome
    (db.receipts.get? (marked.contract.bindingId, marked.contract.idempotencyKey))
    "receipt_not_authoritative" "connector response lacks its exact durable receipt"
  require (receipt.externalActionId = actionId ∧ receipt.actionHash = marked.contract.actionHash ∧
      receipt.capabilityId = marked.contract.capabilityId ∧ receipt.receiptId = receiptId ∧
      receipt.status = status)
    "receipt_not_authoritative" "connector response lacks its exact durable receipt"
  finalizeWriteOutcome db actionId marked step leaseOwner
    (.succeeded (receiptResult dispatcher receipt step now) (lateReceipt marked now)) now

/-- Complete from exact durable connector evidence without another provider call. -/
def reconcileDurableReceipt (dispatcher : Dispatcher) (db : Database) (actionId : String)
    (marked : ExternalAction) (leaseOwner : String) (now : Time) :
    Except Rejection (Option Database) := do
  requireUnchanged db actionId marked
  let step ← writeCompletionContext db marked [.executing]
  match ← authoritativeReceipt db actionId marked with
  | none => return none
  | some receipt =>
      let after ← finalizeWriteOutcome db actionId marked step leaseOwner
        (.succeeded (receiptResult dispatcher receipt step now) (lateReceipt marked now)) now
      return some after

/-- The call marker and lease stay for stale recovery to replay the same idempotency key. -/
def recoveryPending (action : ExternalAction) (outcomeUnknown : Bool) : Bool :=
  outcomeUnknown && action.contract.idempotencySupport.retryable &&
    action.deliveryAttemptCount < action.contract.deliveryAttemptLimit

/-- The last transaction of a failed call, after no receipt was found for it. -/
def completeFailure (db : Database) (actionId : String) (marked : ExternalAction)
    (leaseOwner reasonCode : String) (outcomeUnknown : Bool) (now : Time) :
    Except Rejection (Option Database) := do
  if recoveryPending marked outcomeUnknown then return none
  else
    requireUnchanged db actionId marked
    let step ← writeCompletionContext db marked [.executing]
    let after ← finalizeWriteOutcome db actionId marked step leaseOwner
      (if outcomeUnknown then .outcomeUnknown reasonCode else .failed reasonCode) now
    return some after

inductive StaleActionRecoveryDecision where
  | retryPreCall
  | failPreCallExhausted
  | retryProviderIdempotent
  | outcomeUnknown
deriving DecidableEq, Repr

/-- Classify one persisted expired dispatch lease. -/
def classifyStaleActionRecovery (action : ExternalAction) (now : Time) :
    Except Rejection StaleActionRecoveryDecision := do
  let lease ← requireSome action.lease "ValueError"
    "stale recovery requires a dispatching action with a current lease"
  let attemptsRemain := action.deliveryAttemptCount < action.contract.deliveryAttemptLimit
  match action.call with
  | none =>
      require (lease.expiresAt ≤ now) "ValueError"
        "stale recovery cannot classify an unexpired pre-call dispatch lease"
      return if attemptsRemain then .retryPreCall else .failPreCallExhausted
  | some call =>
      require (call.deadlineAt ≤ now) "ValueError"
        "stale recovery cannot preempt unexpired connector call authority"
      return if attemptsRemain ∧ action.contract.idempotencySupport.retryable then
        .retryProviderIdempotent else .outcomeUnknown

/-- The instant from which an action's lease and call may be recovered. -/
def recoveryAt (action : ExternalAction) : Option Time :=
  action.lease.map fun lease =>
    match action.call with
    | none => lease.expiresAt
    | some call => max lease.expiresAt call.deadlineAt

def releaseStale (db : Database) (actionId : String) (snapshot : ExternalAction) (now : Time)
    (release : RetryRelease) : Option Database := do
  let lease ← snapshot.lease
  db.releaseStaleForRetry actionId snapshot.version lease.attemptNumber now release

/-- One transaction of stale recovery: it releases the action for another
dispatch or closes it, as the classification says. -/
def recoverStale (db : Database) (actionId : String) (snapshot : ExternalAction) (now : Time) :
    Except Rejection Database := do
  let lease ← requireSome snapshot.lease "recovery_call_authority_invalid"
    "dispatching action lacks its exact recovery lease"
  require (∀ instant ∈ recoveryAt snapshot, instant ≤ now) "recovery_pending"
    "dispatching action retains its lease or its call authority"
  let decision ← classifyStaleActionRecovery snapshot now
  match decision with
  | .retryPreCall =>
      requireSome (releaseStale db actionId snapshot now .preCallExpired) "release_cas_lost"
        "stale action was not released"
  | .retryProviderIdempotent =>
      requireSome (releaseStale db actionId snapshot now .providerRetry) "release_cas_lost"
        "stale action was not released"
  | .failPreCallExhausted =>
      requireUnchanged db actionId snapshot
      let step ← writeCompletionContext db snapshot [.ready, .executing]
      finalizeWriteOutcome db actionId snapshot step lease.owner .preCallExhausted now
  | .outcomeUnknown =>
      requireUnchanged db actionId snapshot
      let step ← writeCompletionContext db snapshot [.executing]
      finalizeWriteOutcome db actionId snapshot step lease.owner
        (.outcomeUnknown "stale_delivery_outcome_unknown") now

/-- Resolve no-receipt closure provenance from the exact failed-run mutation. -/
def failedParentCallReason (db : Database) : Except Rejection String := do
  let witness := db.audits.findSome? fun event =>
    match event with
    | .runTransition transition origin =>
        if transition.resultingVersion = db.run.version then some (transition, origin) else none
    | _ => none
  let (transition, origin) ← requireSome witness "terminal_parent_audit_invalid"
    "failed parent Run lacks its exact terminal mutation witness"
  require (transition.occurredAt = db.run.updatedAt ∧ transition.previousState = some .executing ∧
      transition.newState = .failed ∧ some transition.reasonCode = db.run.terminalReasonCode ∧
      transition.command = .fail) "terminal_parent_audit_invalid"
    "failed parent Run lacks its exact terminal mutation witness"
  return if origin = some .runtimeControl then "runtime_control_denied_after_call_start"
    else "parent_run_failed_after_call_start"

/-- Whether a call may be closed under the state its parent is in. -/
def terminalParent (db : Database) (control : RunExecutionControl) : Bool :=
  db.run.state ∈ [.cancelled, .failed] || control.cancelRequest ≠ none

/-- The reason recorded for a call without a receipt under a finished parent. -/
def terminalCallReason (db : Database) : Except Rejection String :=
  if db.run.state = .failed then failedParentCallReason db else .ok "run_cancelled_after_call_start"

/-- The run was cancelled by request and everything about the call has expired. -/
def cancelledRecoveryContext (db : Database) (control : RunExecutionControl) (lease : DispatchLease)
    (call : CallAuthority) (now : Time) : Bool :=
  db.run.state = .cancelled && control.cancelRequest ≠ none && control.window ≠ none &&
    max lease.expiresAt call.deadlineAt ≤ now

/-- Close expired call authority under a terminal or cancelled parent without replay. -/
def finalizeTerminalParentCall (dispatcher : Dispatcher) (db : Database) (actionId : String)
    (snapshot : ExternalAction) (cancelledOnly : Bool) (now : Time) :
    Except Rejection (Option Database) := do
  match snapshot.call with
  | none => return none
  | some call =>
      if now < call.deadlineAt then return none
      else
        requireUnchanged db actionId snapshot
        let lease ← requireSome snapshot.lease "recovery_call_authority_invalid"
          "terminal action lacks its exact provider-call lease"
        let control ← requireSome db.control "execution_control_invalid"
          "terminal action lacks its exact parent control"
        require (control.policyHash = snapshot.contract.planHash) "execution_control_invalid"
          "terminal action lacks its exact parent control"
        require (cancelledOnly → cancelledRecoveryContext db control lease call now)
          "cancelled_recovery_context_invalid"
          "cancelled recovery requires an expired call and exact cancelled parent"
        let step ← sealedWriteStep db snapshot
        require (step.state = .executing) "terminal_call_step_invalid"
          "terminal action lacks its exact executing WRITE step"
        if terminalParent db control then
          match ← authoritativeReceipt db actionId snapshot with
          | some receipt =>
              let after ← finalizeWriteOutcome db actionId snapshot step lease.owner
                (.succeeded (receiptResult dispatcher receipt step now) true) now
              return some after
          | none =>
              let reasonCode ← terminalCallReason db
              let after ← finalizeWriteOutcome db actionId snapshot step lease.owner
                (.outcomeUnknown reasonCode) now
              return some after
        else return none

end ExternalActionDispatcher

end MarketingAgents
