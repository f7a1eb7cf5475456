import MarketingAgents.Domain.Enums

namespace MarketingAgents

/-! # External actions

The persisted delivery state of one approved effect.  Columns that are only
meaningful together are grouped, and the entity carries the checks made when
a row is loaded, so an inconsistent row cannot be represented.
-/

inductive IdempotencySupport where
  | required
  | supported
  | unavailable
deriving DecidableEq, Repr

/-- The connectors that may be asked again under the same idempotency key. -/
def IdempotencySupport.retryable : IdempotencySupport → Bool
  | required | supported => true
  | unavailable => false

structure ActionReservationSnapshot where
  reservationId : String
  authorizationSetId : String
  approvalRequestId : String
  approvalDecisionId : String
  actionHash : String
  capabilityId : String
  bindingId : String
  idempotencyKey : String
  reservedAt : Time
deriving DecidableEq

structure DispatchLease where
  owner : String
  attemptNumber : Nat
  claimedAt : Time
  expiresAt : Time
deriving DecidableEq

/-- The marker of a started provider call and the end of its authority. -/
structure CallAuthority where
  startedAt : Time
  deadlineAt : Time
deriving DecidableEq

structure ExternalActionResultSnapshot where
  receiptId : String
  status : String
  safeMetadata : String
  completedAt : Time
deriving DecidableEq

structure Supersession where
  byActionId : String
  supersededAt : Time
deriving DecidableEq

/-- The immutable identity of one proposal and its delivery contract. -/
structure DeliveryContract where
  runId : String
  stepId : String
  stepKey : String
  authorizationSetId : String
  planHash : String
  proposalRevision : Nat
  actionHash : String
  capabilityId : String
  bindingId : String
  idempotencyKey : String
  idempotencySupport : IdempotencySupport
  timeoutSeconds : Nat
  deliveryAttemptLimit : Nat
deriving DecidableEq

structure ExternalActionRow where
  contract : DeliveryContract
  state : ExternalActionState
  createdAt : Time
  updatedAt : Time
  version : Nat
  deliveryAttemptCount : Nat
  reservation : Option ActionReservationSnapshot
  lease : Option DispatchLease
  call : Option CallAuthority
  result : Option ExternalActionResultSnapshot
  terminalReasonCode : Option String
  supersession : Option Supersession
deriving DecidableEq

def maxDeliveryAttempts : Nat := 10

namespace ExternalActionRow

variable (row : ExternalActionRow)

def boundsValid : Bool :=
  row.createdAt ≤ row.updatedAt && 1 ≤ row.version &&
    1 ≤ row.contract.deliveryAttemptLimit && row.contract.deliveryAttemptLimit ≤
      maxDeliveryAttempts &&
    row.deliveryAttemptCount ≤ row.contract.deliveryAttemptLimit &&
    1 ≤ row.contract.timeoutSeconds && row.contract.timeoutSeconds ≤ 120

def reservationValid : Bool :=
  match row.reservation with
  | none => row.state ∉ [.dispatchReserved, .dispatching, .succeeded, .failed, .outcomeUnknown]
  | some reservation =>
      reservation.approvalRequestId ≠ reservation.approvalDecisionId &&
      reservation.authorizationSetId = row.contract.authorizationSetId &&
      reservation.actionHash = row.contract.actionHash &&
      reservation.capabilityId = row.contract.capabilityId &&
      reservation.bindingId = row.contract.bindingId &&
      reservation.idempotencyKey = row.contract.idempotencyKey &&
      row.state ∉ [.proposed, .awaitingApproval, .approved]

def callValid : Bool :=
  match row.call with
  | none => true
  | some call =>
      call.startedAt < call.deadlineAt &&
      call.deadlineAt ≤ call.startedAt + seconds row.contract.timeoutSeconds

/-- A lease names the current attempt, and only a dispatching row has a lease or a call. -/
def leaseValid : Bool :=
  match row.lease with
  | none => row.state ≠ .dispatching && row.call = none
  | some lease =>
      row.state = .dispatching && 1 ≤ lease.attemptNumber && lease.claimedAt < lease.expiresAt &&
      row.deliveryAttemptCount = lease.attemptNumber &&
      match row.call with
      | none => true
      | some call => lease.claimedAt ≤ call.startedAt

def outcomeValid : Bool :=
  (row.state ∉ [.dispatching, .succeeded, .failed, .outcomeUnknown] ||
    1 ≤ row.deliveryAttemptCount) &&
    (row.state = .succeeded) = row.result.isSome &&
    (row.state ∈ [.failed, .rejected, .cancelled, .outcomeUnknown, .superseded]) =
      row.terminalReasonCode.isSome &&
    (row.state = .superseded) = row.supersession.isSome &&
    match row.supersession with
    | none => true
    | some supersession => row.createdAt ≤ supersession.supersededAt

/-- The checks every stored row passes, by the constraints of its table and by
the entity it is loaded into. -/
def valid : Bool :=
  row.boundsValid && row.reservationValid && row.callValid && row.leaseValid && row.outcomeValid

end ExternalActionRow

structure ExternalAction extends ExternalActionRow where
  isValid : toExternalActionRow.valid = true
deriving DecidableEq

namespace ExternalAction

variable (action : ExternalAction)

/-- Loading a row rejects it unless every check passes. -/
def ofRow? (row : ExternalActionRow) : Option ExternalAction :=
  if isValid : row.valid = true then some { toExternalActionRow := row, isValid } else none

theorem row_of_ofRow? {row : ExternalActionRow} {action : ExternalAction}
    (loaded : ofRow? row = some action) : action.toExternalActionRow = row := by
  unfold ofRow? at loaded
  split at loaded
  · cases loaded; rfl
  · cases loaded

theorem attemptsWithinLimit :
    action.deliveryAttemptCount ≤ action.contract.deliveryAttemptLimit := by
  have checks := action.isValid
  simp only [ExternalActionRow.valid, ExternalActionRow.boundsValid, Bool.and_eq_true,
    decide_eq_true_eq] at checks
  omega

theorem dispatching_iff_lease : action.state = .dispatching ↔
    ∃ lease, action.lease = some lease := by
  have checks := action.isValid
  simp only [ExternalActionRow.valid, ExternalActionRow.leaseValid, Bool.and_eq_true] at checks
  cases held : action.lease with
  | none => simp [held] at checks; simp [checks]
  | some lease => simp [held] at checks; simp [checks]

theorem lease_attempt (held : action.lease = some lease) :
    lease.attemptNumber = action.deliveryAttemptCount ∧ 1 ≤ lease.attemptNumber := by
  have checks := action.isValid
  simp only [ExternalActionRow.valid, ExternalActionRow.leaseValid, held, Bool.and_eq_true,
    decide_eq_true_eq] at checks
  omega

theorem call_requires_lease (started : action.call = some call) :
    ∃ lease, action.lease = some lease := by
  have checks := action.isValid
  simp only [ExternalActionRow.valid, ExternalActionRow.leaseValid, Bool.and_eq_true] at checks
  cases held : action.lease with
  | none => simp [held, started] at checks
  | some lease => exact ⟨lease, rfl⟩

end ExternalAction

inductive DispatchConclusion where
  | succeeded
  | failed
  | outcomeUnknown
  | preCallExpired
  | providerRetry
  | cancelled
deriving DecidableEq, Repr

/-- How a delivery attempt ended. -/
structure DispatchCompletion where
  completedAt : Time
  conclusion : DispatchConclusion
  reasonCode : Option String
  connectorReceiptId : Option String
deriving DecidableEq

/-- One numbered delivery attempt of an action. -/
structure DispatchAttempt where
  attemptNumber : Nat
  idempotencySupport : IdempotencySupport
  leaseOwner : String
  claimedAt : Time
  leaseExpiresAt : Time
  call : Option CallAuthority
  completion : Option DispatchCompletion
deriving DecidableEq

namespace DispatchAttempt

variable (attempt : DispatchAttempt)

def isOpen : Bool := attempt.completion.isNone

def started : Bool := attempt.call.isSome

def conclusion : Option DispatchConclusion := attempt.completion.map (·.conclusion)

end DispatchAttempt

/-- One durable deterministic connector effect receipt. -/
structure ConnectorActionReceipt where
  externalActionId : String
  actionHash : String
  capabilityId : String
  receiptId : String
  status : String
  safeMetadata : String
  createdAt : Time
deriving DecidableEq

end MarketingAgents
