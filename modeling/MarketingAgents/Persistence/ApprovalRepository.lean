import Mathlib.Data.Option.Basic
import MarketingAgents.Persistence.ReleaseAuthority

namespace MarketingAgents

open Library

namespace StoredAction

variable (stored : StoredAction)

/-- The last attempt is the unstarted one of the current lease. -/
def claimedAttempt (lease : DispatchLease) (attempt : DispatchAttempt) : Bool :=
  attempt.attemptNumber = lease.attemptNumber &&
    attempt.idempotencySupport = stored.action.contract.idempotencySupport &&
    attempt.leaseOwner = lease.owner && attempt.claimedAt = lease.claimedAt &&
    attempt.leaseExpiresAt = lease.expiresAt && attempt.call = none && attempt.completion = none

/-- The finished attempts that a call may follow. -/
def predecessors : Option (List DispatchAttempt) := do
  guard (stored.attemptNumbers = List.range' 1 stored.action.deliveryAttemptCount)
  let predecessors ← match stored.action.lease with
    | none => pure stored.attempts
    | some lease => do
        let current ← stored.attempts.getLast?
        guard (stored.claimedAttempt lease current)
        pure stored.attempts.dropLast
  guard (predecessors.all (releasedAttempt stored.action.contract.idempotencySupport))
  return predecessors

end StoredAction

namespace Database

variable (db : Database)

/-- The set the head points at; a head that disagrees with its set is refused. -/
def currentAuthorizationSet : Option (AuthorizationSetHead × AuthorizationSet) := do
  let head ← db.authorizationHead
  let set ← db.authorizationSets.get? head.currentSetId
  guard (set.planHash = head.planHash ∧ set.proposalRevision = head.proposalRevision ∧
    set.membershipHash = head.membershipHash)
  return (head, set)

def stepTransition? (stepId : String) (sequence : Nat) : Option StepStateTransition :=
  db.stepTransitions.find? fun transition =>
    transition.stepId = stepId && transition.sequence = sequence

/-- The released rows of a member still bind its action. -/
def memberBinds (setId : String) (setRelease : SetRelease) (member : AuthorizationSetMember)
    (release : MemberRelease) (action : ExternalAction)
    (reservation : ActionReservationSnapshot) : Bool :=
  match db.approvalRequests.get? release.approvalRequestId,
      db.approvalUses.get? release.approvalUseId with
  | some request, some use =>
      db.run.state = .executing && db.run.version = setRelease.releasedRunVersion &&
        request.status = .consumed && use.requestId = release.approvalRequestId &&
        use.decisionId = release.approvalDecisionId && use.reservationId = release.reservationId &&
        action.state ∈ [.dispatchReserved, .dispatching] &&
        reservation.reservationId = release.reservationId &&
        reservation.authorizationSetId = setId &&
        reservation.approvalRequestId = release.approvalRequestId &&
        reservation.approvalDecisionId = release.approvalDecisionId &&
        reservation.actionHash = action.contract.actionHash &&
        action.contract.actionHash = member.actionHash && action.contract.stepId = member.stepId &&
        action.contract.stepKey = member.stepKey
  | _, _ => false

/-- The start of the step that a provider retry repeats the call of. -/
def retryWitness (stepId : String) (releasedStepVersion : Nat)
    (firstStartedAt : Option Time) : Bool :=
  match db.stepTransition? stepId (releasedStepVersion + 1) with
  | none => false
  | some transition =>
      transition.command = .startReservedWrite && transition.previousState = some .ready &&
        transition.newState = .executing && transition.expectedVersion = releasedStepVersion &&
        some transition.occurredAt = firstStartedAt

/-- The call mode that the finished attempts and the step row agree on. -/
def releaseCallMode (stored : StoredAction) (stepId : String) (step : RunStep)
    (releasedStepVersion : Nat) : Option (ReleaseCallMode × Option Nat) := do
  let predecessors ← stored.predecessors
  let started := predecessors.filter (·.started)
  match started.getLast? with
  | none =>
      guard (step.state = .ready ∧ step.version = releasedStepVersion)
      return (.firstCall, none)
  | some last =>
      guard (step.state = .executing ∧ step.version = releasedStepVersion + 1 ∧
        stored.action.contract.idempotencySupport.retryable ∧
        db.retryWitness stepId releasedStepVersion
          (started.head?.bind fun first => first.call.map (·.startedAt)))
      return (.providerRetry, some last.attemptNumber)

/-- Read the committed barrier snapshot under which an action may be dispatched. -/
def getReleaseAuthority (actionId : String) : Option ReleaseAuthority := do
  let stored ← db.action? actionId
  let (head, set) ← db.currentAuthorizationSet
  let setRelease ← set.release
  guard (set.status = .released ∧ head.currentSetId = stored.action.contract.authorizationSetId)
  let member ← match set.members.filter (·.actionId = actionId) with
    | [member] => some member
    | _ => none
  let release ← member.release
  let reservation ← stored.action.reservation
  guard (db.memberBinds head.currentSetId setRelease member release stored.action reservation)
  let step ← db.step? member.stepId
  let (callMode, priorStartedAttemptNumber) ←
    db.releaseCallMode stored member.stepId step release.releasedStepVersion
  guard (!db.unsatisfiedDependency member.stepId)
  return {
    authorizationSetId := head.currentSetId
    membershipHash := set.membershipHash
    releaseHash := setRelease.releaseHash
    authorizationSetVersion := set.version
    headVersion := head.version
    runId := db.runId
    releasedRunVersion := setRelease.releasedRunVersion
    actionId := member.actionId
    actionHash := member.actionHash
    stepId := member.stepId
    stepKey := member.stepKey
    releasedStepVersion := release.releasedStepVersion
    stepState := step.state
    stepVersion := step.version
    callMode
    priorStartedAttemptNumber
    approvalRequestId := release.approvalRequestId
    approvalDecisionId := release.approvalDecisionId
    approvalUseId := release.approvalUseId
    reservationId := release.reservationId }

/-- The current request of an action: the one that no renewal has replaced. -/
def currentLeaf (setId actionId : String) : Option (String × ApprovalRequest) :=
  db.approvalRequests.entries.find? fun entry =>
    entry.2.actionId = actionId && entry.2.authorizationSetId = setId &&
      entry.2.replacementRequestId = none

/-- Update the row of an action that still waits for its approval. -/
def updateAwaiting (actionId : String) (expectedVersion : Nat) (from_ : List ExternalActionState)
    (change : ExternalActionRow → ExternalActionRow) : Option Database := do
  let stored ← db.action? actionId
  guard (stored.action.version = expectedVersion ∧ stored.action.state ∈ from_ ∧
    stored.action.reservation = none)
  let action ← ExternalAction.ofRow? (change { stored.action.toExternalActionRow with
    version := stored.action.version + 1 })
  return db.storeAction actionId { stored with action }

def recordDecision (requestId decisionId : String) (approve : Bool)
    (expectedVersion expectedActionVersion : Nat) (decidedAt : Time) : Option Database := do
  let request ← db.approvalRequests.get? requestId
  guard (request.version = expectedVersion ∧ request.status = .pending ∧
    decidedAt < request.expiresAt ∧ request.replacementRequestId = none)
  let decided ← db.updateAwaiting request.actionId expectedActionVersion
      [.awaitingApproval] fun row =>
    { row with
      state := if approve then .approved else .rejected
      updatedAt := decidedAt
      terminalReasonCode := if approve then none else some "approval_rejected" }
  return { decided with
    approvalRequests := decided.approvalRequests.set requestId { request with
      status := if approve then .approved else .rejected
      decisionId := some decisionId
      version := expectedVersion + 1
      updatedAt := decidedAt } }

/-- An approved action waits again once its approval has expired. -/
def reopenApproved (request : ApprovalRequest) (expectedActionVersion : Nat) (reopenedAt : Time) :
    Option Database :=
  if request.status = .approved then
    db.updateAwaiting request.actionId expectedActionVersion [.approved] fun row =>
      { row with state := .awaitingApproval, updatedAt := reopenedAt, terminalReasonCode := none }
  else do
    let stored ← db.action? request.actionId
    guard (stored.action.version = expectedActionVersion ∧ stored.action.state = .awaitingApproval)
    return db

def markExpired (requestId : String) (expectedVersion expectedActionVersion : Nat)
    (expiredAt : Time) : Option Database := do
  let request ← db.approvalRequests.get? requestId
  guard (request.version = expectedVersion ∧ request.status ∈ [.pending, .approved] ∧
    request.expiresAt ≤ expiredAt ∧ request.replacementRequestId = none)
  let reopened ← db.reopenApproved request expectedActionVersion expiredAt
  return { reopened with
    approvalRequests := reopened.approvalRequests.set requestId { request with
      status := .expired
      version := expectedVersion + 1
      updatedAt := expiredAt } }

/-- Replace an expired or expirable request by a fresh one for the same action. -/
def renewExpired (requestId replacementId : String) (expectedVersion expectedActionVersion : Nat)
    (requestedAt expiresAt : Time) : Option Database := do
  let request ← db.approvalRequests.get? requestId
  guard (request.version = expectedVersion ∧ request.status ∈ [.pending, .approved, .expired] ∧
    request.replacementRequestId = none)
  let requests ← db.approvalRequests.insert? replacementId { request with
    generation := request.generation + 1
    expiresAt
    status := .pending
    decisionId := none
    version := 1
    updatedAt := requestedAt }
  let reopened ← db.reopenApproved request expectedActionVersion requestedAt
  return { reopened with
    approvalRequests := requests.set requestId { request with
      status := .expired
      version := request.version + (if request.status = .expired then 1 else 2)
      updatedAt := requestedAt
      replacementRequestId := some replacementId } }

end Database

/-- One member of the current set with the rows that it binds. -/
structure MemberRow where
  member : AuthorizationSetMember
  requestId : String
  request : ApprovalRequest
  stored : StoredAction
  step : RunStep

structure ReleaseIds where
  approvalUseId : String
  reservationId : String

namespace Database

variable (db : Database)

def reservationOf (setId : String) (row : MemberRow) (decisionId reservationId : String)
    (releasedAt : Time) : ActionReservationSnapshot where
  reservationId
  authorizationSetId := setId
  approvalRequestId := row.requestId
  approvalDecisionId := decisionId
  actionHash := row.stored.action.contract.actionHash
  capabilityId := row.stored.action.contract.capabilityId
  bindingId := row.stored.action.contract.bindingId
  idempotencyKey := row.stored.action.contract.idempotencyKey
  reservedAt := releasedAt

def useOf (setId : String) (row : MemberRow) (decisionId reservationId : String)
    (releasedAt : Time) : ApprovalUse where
  requestId := row.requestId
  decisionId
  actionId := row.member.actionId
  actionHash := row.stored.action.contract.actionHash
  authorizationSetId := setId
  stepId := row.stored.action.contract.stepId
  stepKey := row.stored.action.contract.stepKey
  reservationId
  usedAt := releasedAt

/-- Release one member: its step, its action, its approval and its own row. -/
def releaseMember (setId : String) (runVersion : Nat) (releasedAt : Time) (row : MemberRow)
    (ids : ReleaseIds) (stepTransition : StepTransitionResult) :
    Option (AuthorizationSetMember × Database) := do
  let decisionId ← row.request.decisionId
  let stepped ← db.applyStepTransition runVersion .executing
    stepTransition.transition.expectedVersion .awaitingApproval stepTransition
  let stored ← stepped.action? row.member.actionId
  guard (stored.action.contract.authorizationSetId = setId ∧
    stored.action.contract.stepId = row.member.stepId ∧
    stored.action.contract.stepKey = row.member.stepKey ∧
    stored.action.version = row.stored.action.version ∧ stored.action.state = .approved ∧
    stored.action.reservation = none ∧ stored.action.deliveryAttemptCount = 0)
  let action ← ExternalAction.ofRow? { stored.action.toExternalActionRow with
    state := .dispatchReserved
    reservation := some (reservationOf setId row decisionId ids.reservationId releasedAt)
    updatedAt := releasedAt
    version := stored.action.version + 1 }
  let uses ← stepped.approvalUses.insert? ids.approvalUseId
    (useOf setId row decisionId ids.reservationId releasedAt)
  let request ← stepped.approvalRequests.get? row.requestId
  guard (request.version = row.request.version ∧ request.status = .approved ∧
    releasedAt < request.expiresAt ∧ request.replacementRequestId = none)
  guard (row.member.release = none)
  return ({ row.member with
      release := some {
        approvalRequestId := row.requestId
        approvalDecisionId := decisionId
        approvalUseId := ids.approvalUseId
        reservationId := ids.reservationId
        releasedStepVersion := stepTransition.step.version
        releasedAt } },
    { stepped.storeAction row.member.actionId { stored with action } with
      approvalUses := uses
      approvalRequests := stepped.approvalRequests.set row.requestId { request with
        status := .consumed
        version := request.version + 1
        updatedAt := releasedAt } })

/-- Close one member of an open set that is rejected or cancelled. -/
def closeMember (rejecting : Bool) (closedAt : Time) (row : MemberRow) : Option Database := do
  if rejecting ∧ row.request.status = .rejected ∧ row.stored.action.state = .rejected then return db
  else
    let closed ← db.updateAwaiting row.member.actionId row.stored.action.version
      [.awaitingApproval, .approved] fun action =>
      { action with
        state := .cancelled
        updatedAt := closedAt
        terminalReasonCode := some
          (if rejecting then "sibling_approval_rejected" else "operator_cancelled") }
    if row.request.status = .expired then return closed
    else
      guard (row.request.status ∈ [.pending, .approved])
      return { closed with
        approvalRequests := closed.approvalRequests.set row.requestId { row.request with
          status := .superseded
          version := row.request.version + 1
          updatedAt := closedAt } }

end Database

end MarketingAgents
