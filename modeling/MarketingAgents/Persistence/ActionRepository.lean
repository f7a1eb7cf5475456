import Mathlib.Data.Option.Basic
import MarketingAgents.Persistence.ReleaseAuthority

namespace MarketingAgents

open Library

/-! # The external-action repository

Each operation is one conditional update.  The three that read the action
before they update it take that read as an argument, because the database only
promises that the update itself is atomic: the row read may be an older one.
An operation that answers nothing, or whose transaction is rolled back by a
constraint, has no result.
-/

/-- The outcomes a started call can be completed with. -/
inductive CallOutcome where
  | succeeded (result : ExternalActionResultSnapshot)
  | failed (reasonCode : String) (occurredAt : Time)
  | outcomeUnknown (reasonCode : String) (occurredAt : Time)
deriving DecidableEq

namespace CallOutcome

def state : CallOutcome → ExternalActionState
  | succeeded _ => .succeeded
  | failed _ _ => .failed
  | outcomeUnknown _ _ => .outcomeUnknown

def conclusion : CallOutcome → DispatchConclusion
  | succeeded _ => .succeeded
  | failed _ _ => .failed
  | outcomeUnknown _ _ => .outcomeUnknown

def reasonCode : CallOutcome → Option String
  | succeeded _ => none
  | failed reasonCode _ => some reasonCode
  | outcomeUnknown reasonCode _ => some reasonCode

def occurredAt : CallOutcome → Time
  | succeeded result => result.completedAt
  | failed _ occurredAt => occurredAt
  | outcomeUnknown _ occurredAt => occurredAt

def result : CallOutcome → Option ExternalActionResultSnapshot
  | succeeded result => some result
  | failed _ _ => none
  | outcomeUnknown _ _ => none

end CallOutcome

/-- The two ways an expired lease may be released for another attempt. -/
inductive RetryRelease where
  | preCallExpired
  | providerRetry
deriving DecidableEq, Repr

def RetryRelease.conclusion : RetryRelease → DispatchConclusion
  | preCallExpired => .preCallExpired
  | providerRetry => .providerRetry

def RetryRelease.reasonCode : RetryRelease → String
  | preCallExpired => "pre_call_expired"
  | providerRetry => "provider_retry"

namespace StoredAction

variable (stored : StoredAction)

/-- Update the attempts of one number, as the attempt table's primary key selects them. -/
def updateAttempt (attemptNumber : Nat) (change : DispatchAttempt → DispatchAttempt) :
    List DispatchAttempt :=
  stored.attempts.map fun attempt =>
    if attempt.attemptNumber = attemptNumber then change attempt else attempt

def concludeAttempt (attemptNumber : Nat) (completion : DispatchCompletion) :
    List DispatchAttempt :=
  stored.updateAttempt attemptNumber fun attempt => { attempt with completion := some completion }

/-- The attempt of a number while it has neither started its call nor ended. -/
def unstartedAttempt (attemptNumber : Nat) (attempt : DispatchAttempt) : Bool :=
  attempt.attemptNumber = attemptNumber && attempt.call = none && attempt.completion = none

def cancelAttempt (attemptNumber : Nat) (occurredAt : Time) (reasonCode : String) :
    List DispatchAttempt :=
  stored.attempts.map fun attempt =>
    if unstartedAttempt attemptNumber attempt then
      { attempt with completion := some {
          completedAt := occurredAt
          conclusion := .cancelled
          reasonCode := some reasonCode
          connectorReceiptId := none } }
    else attempt

/-- The row without a lease and a call marker, which only a dispatching row may keep. -/
def settledRow (state : ExternalActionState) (occurredAt : Time) : ExternalActionRow :=
  { stored.action.toExternalActionRow with
    state
    lease := none
    call := none
    updatedAt := occurredAt
    version := stored.action.version + 1 }

end StoredAction

namespace Database

variable (db : Database)

/-- The authority names the step state that belongs to its call mode. -/
def authorityFitsCallMode (authority : ReleaseAuthority) : Bool :=
  match authority.callMode with
  | .firstCall =>
      authority.stepState = .ready && authority.stepVersion = authority.releasedStepVersion &&
        authority.priorStartedAttemptNumber = none
  | .providerRetry =>
      authority.stepState = .executing &&
        authority.stepVersion = authority.releasedStepVersion + 1 &&
        authority.priorStartedAttemptNumber.isSome

def claimReserved (snapshot : Option StoredAction) (actionId : String) (expectedVersion : Nat)
    (authority : ReleaseAuthority) (leaseOwner : String) (claimedAt leaseExpiresAt : Time) :
    Option Database := do
  let current ← snapshot
  guard (authority.actionId = actionId ∧ authority.actionHash = current.action.contract.actionHash ∧
    authorityFitsCallMode authority)
  let attemptNumber := current.action.deliveryAttemptCount + 1
  guard (attemptNumber ≤ current.action.contract.deliveryAttemptLimit)
  let stored ← db.action? actionId
  guard (stored.action.version = expectedVersion ∧ stored.action.state = .dispatchReserved ∧
    stored.action.deliveryAttemptCount < stored.action.contract.deliveryAttemptLimit ∧
    db.releaseFence authority stored)
  let action ← ExternalAction.ofRow? { stored.action.toExternalActionRow with
    state := .dispatching
    lease := some { owner := leaseOwner, attemptNumber, claimedAt, expiresAt := leaseExpiresAt }
    deliveryAttemptCount := attemptNumber
    updatedAt := claimedAt
    version := expectedVersion + 1 }
  -- The attempt table's primary key refuses a number that is already stored.
  guard (attemptNumber ∉ stored.attemptNumbers)
  return db.storeAction actionId {
    action
    attempts := stored.attempts ++ [{
      attemptNumber
      idempotencySupport := current.action.contract.idempotencySupport
      leaseOwner
      claimedAt
      leaseExpiresAt
      call := none
      completion := none }] }

/-- The transition offered with a call start has to start the step for a first
call and has to be absent for a provider retry. -/
def startTransitionFits (authority : ReleaseAuthority) (startedAt : Time)
    (stepTransition : Option StepTransitionResult) : Bool :=
  match authority.callMode with
  | .firstCall =>
      match stepTransition with
      | none => false
      | some result =>
          result.transition.command = .startReservedWrite &&
          result.transition.previousState = some .ready && result.step.state = .executing &&
          result.transition.stepId = authority.stepId && result.step.key = authority.stepKey &&
          result.transition.expectedVersion = authority.releasedStepVersion &&
          result.transition.occurredAt = startedAt
  | .providerRetry =>
      stepTransition = none && authority.stepState = .executing &&
        authority.stepVersion = authority.releasedStepVersion + 1 &&
        authority.priorStartedAttemptNumber.isSome

/-- The step transition of a first call, applied beside the call marker. -/
def startStep (authority : ReleaseAuthority) (stepTransition : Option StepTransitionResult) :
    Option Database :=
  match stepTransition with
  | none => some db
  | some result =>
      db.applyStepTransition authority.releasedRunVersion .executing authority.releasedStepVersion
        .ready result

/-- The unstarted, unfinished attempt that a lease holds. -/
def heldAttempt (support : IdempotencySupport) (lease : DispatchLease)
    (attempt : DispatchAttempt) : Bool :=
  attempt.attemptNumber = lease.attemptNumber && attempt.idempotencySupport = support &&
    attempt.leaseOwner = lease.owner && attempt.claimedAt = lease.claimedAt &&
    attempt.leaseExpiresAt = lease.expiresAt && attempt.call = none && attempt.completion = none

def markCallStarted (snapshot : Option StoredAction) (actionId : String) (expectedVersion : Nat)
    (authority : ReleaseAuthority) (leaseOwner : String) (attemptNumber : Nat)
    (startedAt callDeadlineAt : Time) (stepTransition : Option StepTransitionResult) :
    Option Database := do
  let current ← snapshot
  guard (startedAt < callDeadlineAt ∧
    callDeadlineAt ≤ startedAt + seconds current.action.contract.timeoutSeconds ∧
    authority.actionId = actionId ∧ startTransitionFits authority startedAt stepTransition)
  let currentLease ← current.action.lease
  guard (currentLease.owner = leaseOwner ∧ currentLease.attemptNumber = attemptNumber)
  let stored ← db.action? actionId
  let lease ← stored.action.lease
  guard (stored.action.version = expectedVersion ∧ stored.action.state = .dispatching ∧
    lease.owner = leaseOwner ∧ lease.attemptNumber = attemptNumber ∧ startedAt < lease.expiresAt ∧
    stored.action.call = none ∧ db.releaseFence authority stored ∧
    stored.attempts.any (heldAttempt stored.action.contract.idempotencySupport lease))
  let call : CallAuthority := { startedAt, deadlineAt := callDeadlineAt }
  let action ← ExternalAction.ofRow? { stored.action.toExternalActionRow with
    call := some call
    updatedAt := startedAt
    version := expectedVersion + 1 }
  let stepped ← db.startStep authority stepTransition
  guard (stored.attempts.any
    (heldAttempt current.action.contract.idempotencySupport currentLease))
  return stepped.storeAction actionId {
    action
    attempts := stored.attempts.map fun attempt =>
      if heldAttempt current.action.contract.idempotencySupport currentLease attempt then
        { attempt with call := some call }
      else attempt }

def runtimeCancelReasons : List String :=
  ["operator_cancelled", "parent_run_failed", "runtime_control_denied"]

/-- Cancel released work only while no connector call has started. -/
def cancelUnstartedAfterRelease (snapshot : Option StoredAction) (actionId runId planHash : String)
    (expectedVersion : Nat) (occurredAt : Time) (reasonCode : String) : Option Database := do
  guard (reasonCode ∈ runtimeCancelReasons)
  let current ← snapshot
  guard (current.action.contract.runId = runId ∧ current.action.contract.planHash = planHash ∧
    current.action.version = expectedVersion ∧ current.action.updatedAt ≤ occurredAt ∧
    current.action.state ∈ [.dispatchReserved, .dispatching] ∧ current.action.call = none)
  let reservation ← current.action.reservation
  let stored ← db.action? actionId
  guard (stored.action.contract.runId = runId ∧ stored.action.contract.planHash = planHash ∧
    stored.action.version = expectedVersion ∧ stored.action.state = current.action.state ∧
    stored.action.reservation.map (·.reservationId) = some reservation.reservationId ∧
    stored.action.call = none)
  let action ← ExternalAction.ofRow? { stored.settledRow .cancelled occurredAt with
    terminalReasonCode := some reasonCode }
  if current.action.state = .dispatching then
    guard (stored.attempts.any (StoredAction.unstartedAttempt current.action.deliveryAttemptCount))
    return db.storeAction actionId {
      action
      attempts := stored.cancelAttempt current.action.deliveryAttemptCount occurredAt reasonCode }
  else return db.storeAction actionId { action, attempts := stored.attempts }

/-- A durable receipt of the action matches the result offered for it. -/
def receiptExists (actionId : String) (action : ExternalAction)
    (result : ExternalActionResultSnapshot) :
    Bool :=
  match db.receipts.get? (action.contract.bindingId, action.contract.idempotencyKey) with
  | none => false
  | some receipt =>
      receipt.externalActionId = actionId && receipt.receiptId = result.receiptId &&
        receipt.status = result.status && receipt.actionHash = action.contract.actionHash &&
        receipt.capabilityId = action.contract.capabilityId

def outcomeEvidence (actionId : String) (action : ExternalAction) (outcome : CallOutcome) : Bool :=
  match outcome.result with
  | none => true
  | some result => db.receiptExists actionId action result

def complete (actionId : String) (expectedVersion : Nat) (leaseOwner : String) (attemptNumber : Nat)
    (outcome : CallOutcome) : Option Database := do
  let stored ← db.action? actionId
  let lease ← stored.action.lease
  guard (stored.action.version = expectedVersion ∧ stored.action.state = .dispatching ∧
    lease.owner = leaseOwner ∧ lease.attemptNumber = attemptNumber ∧ stored.action.call ≠ none ∧
    db.outcomeEvidence actionId stored.action outcome)
  let action ← ExternalAction.ofRow? { stored.settledRow outcome.state outcome.occurredAt with
    result := outcome.result
    terminalReasonCode := outcome.reasonCode }
  return db.storeAction actionId {
    action
    attempts := stored.concludeAttempt attemptNumber {
      completedAt := outcome.occurredAt
      conclusion := outcome.conclusion
      reasonCode := outcome.reasonCode
      connectorReceiptId := outcome.result.map (·.receiptId) } }

def completeSucceeded (actionId : String) (expectedVersion : Nat) (leaseOwner : String)
    (attemptNumber : Nat) (result : ExternalActionResultSnapshot) : Option Database :=
  db.complete actionId expectedVersion leaseOwner attemptNumber (.succeeded result)

def completeFailed (actionId : String) (expectedVersion : Nat) (leaseOwner : String)
    (attemptNumber : Nat) (reasonCode : String) (occurredAt : Time) : Option Database :=
  db.complete actionId expectedVersion leaseOwner attemptNumber (.failed reasonCode occurredAt)

def markOutcomeUnknown (actionId : String) (expectedVersion : Nat) (leaseOwner : String)
    (attemptNumber : Nat) (reasonCode : String) (occurredAt : Time) : Option Database :=
  db.complete actionId expectedVersion leaseOwner attemptNumber
    (.outcomeUnknown reasonCode occurredAt)

/-- The lease or the call has expired and another attempt remains. -/
def releasable (action : ExternalAction) (lease : DispatchLease) (release : RetryRelease)
    (occurredAt : Time) : Bool :=
  action.deliveryAttemptCount < action.contract.deliveryAttemptLimit &&
    match release, action.call with
    | .preCallExpired, none => lease.expiresAt ≤ occurredAt
    | .providerRetry, some call =>
        call.deadlineAt ≤ occurredAt && action.contract.idempotencySupport.retryable
    | _, _ => false

/-- The run is executing under a started control that nobody has cancelled. -/
def retryAllowed (action : ExternalAction) : Bool :=
  action.contract.runId = db.runId && db.run.state = .executing &&
    match db.control with
    | none => false
    | some control =>
        control.policyHash = action.contract.planHash && control.window ≠ none &&
          control.cancelRequest = none

def releaseStaleForRetry (actionId : String) (expectedVersion attemptNumber : Nat)
    (occurredAt : Time) (release : RetryRelease) : Option Database := do
  let stored ← db.action? actionId
  let lease ← stored.action.lease
  guard (stored.action.version = expectedVersion ∧ stored.action.state = .dispatching ∧
    lease.attemptNumber = attemptNumber ∧ db.retryAllowed stored.action ∧
    releasable stored.action lease release occurredAt)
  let action ← ExternalAction.ofRow? (stored.settledRow .dispatchReserved occurredAt)
  return db.storeAction actionId {
    action
    attempts := stored.concludeAttempt attemptNumber {
      completedAt := occurredAt
      conclusion := release.conclusion
      reasonCode := some release.reasonCode
      connectorReceiptId := none } }

def failExhaustedStalePreCall (actionId : String) (expectedVersion attemptNumber : Nat)
    (occurredAt : Time) (reasonCode : String) : Option Database := do
  let stored ← db.action? actionId
  let lease ← stored.action.lease
  guard (stored.action.version = expectedVersion ∧ stored.action.state = .dispatching ∧
    lease.attemptNumber = attemptNumber ∧ lease.expiresAt ≤ occurredAt ∧ stored.action.call = none ∧
    stored.action.contract.deliveryAttemptLimit ≤ stored.action.deliveryAttemptCount)
  let action ← ExternalAction.ofRow? { stored.settledRow .failed occurredAt with
    terminalReasonCode := some reasonCode }
  return db.storeAction actionId {
    action
    attempts := stored.concludeAttempt attemptNumber {
      completedAt := occurredAt
      conclusion := .failed
      reasonCode := some reasonCode
      connectorReceiptId := none } }

end Database

end MarketingAgents
