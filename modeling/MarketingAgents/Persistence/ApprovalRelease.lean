import MarketingAgents.Persistence.ApprovalWriters

namespace MarketingAgents

open Library

/-! # Releasing and closing the current authorization set -/

/-- A transition result agrees with the step it results in, and the step passes
the constraint of its table. -/
def StepTransitionResult.consistent (result : StepTransitionResult) : Bool :=
  result.transition.sequence = result.transition.resultingVersion &&
    result.transition.resultingVersion = result.transition.expectedVersion + 1 &&
    result.step.state = result.transition.newState &&
    result.step.version = result.transition.resultingVersion &&
    result.step.updatedAt = result.transition.occurredAt &&
    result.step.state.terminal =
      (result.step.terminalReasonCode = some result.transition.reasonCode) &&
    result.step.state.terminal = result.step.terminalReasonCode.isSome &&
    result.transition.command ≠ .initializeStep && result.transition.previousState.isSome &&
    result.transition.previousState ≠ some result.transition.newState

/-- A transition result agrees with the run it results in. -/
def RunTransitionResult.consistent (result : RunTransitionResult) : Bool :=
  result.transition.sequence = result.transition.resultingVersion &&
    result.transition.resultingVersion = result.transition.expectedVersion + 1 &&
    result.run.state = result.transition.newState &&
    result.run.version = result.transition.resultingVersion &&
    result.run.updatedAt = result.transition.occurredAt

/-- Every exact source and target fact of one barrier member. -/
structure ApprovalSetReleaseMember where
  request : StoredActionApprovalRequest
  action : ExternalAction
  stepTransition : StepTransitionResult
  useId : String
  use : ApprovalUse
  reservation : ActionReservationSnapshot

namespace ApprovalSetReleaseMember

variable (member : ApprovalSetReleaseMember)

def actionId : String := member.request.request.binding.actionId

/-- The member was approved by a decision with exactly the required authority. -/
def approvedBy (decision : ApprovalDecision) : Bool :=
  let request := member.request.request
  decision.authorityRoles = request.binding.policy.requiredRoles ∪ {"approver"} &&
    decision.authorityScopes = request.binding.policy.requiredScopes ∪ {"approvals:decide"} &&
    (request.binding.policy.allowSelfApproval || decision.actorId ≠ request.requestedBy) &&
    decision.decidedAt < request.expiresAt && member.use.decisionId = decision.id &&
    member.reservation.approvalDecisionId = decision.id && decision.decidedAt ≤ member.use.usedAt

def stepReleases : Bool :=
  let binding := member.request.request.binding
  member.stepTransition.consistent && member.stepTransition.transition.command = .releaseApproval &&
    member.stepTransition.transition.previousState = some .awaitingApproval &&
    member.stepTransition.step.state = .ready &&
    member.stepTransition.transition.stepId = binding.stepId &&
    member.stepTransition.step.key = binding.stepKey &&
    member.stepTransition.transition.occurredAt = member.use.usedAt

def useBinds : Bool :=
  let binding := member.request.request.binding
  member.use.requestId = member.request.id && member.use.actionId = binding.actionId &&
    member.use.actionHash = binding.actionHash &&
    member.use.authorizationSetId = binding.authorizationSetId &&
      member.use.stepId = binding.stepId &&
    member.use.stepKey = binding.stepKey && member.use.usedAt < member.request.request.expiresAt

def reservationBinds : Bool :=
  let binding := member.request.request.binding
  member.reservation.reservationId = member.use.reservationId &&
    member.reservation.authorizationSetId = binding.authorizationSetId &&
    member.reservation.approvalRequestId = member.request.id &&
    member.reservation.actionHash = binding.actionHash &&
    member.reservation.capabilityId = member.action.contract.capabilityId &&
    member.reservation.bindingId = member.action.contract.bindingId &&
    member.reservation.idempotencyKey = member.action.contract.idempotencyKey &&
    member.use.usedAt = member.reservation.reservedAt

def valid : Bool :=
  let binding := member.request.request.binding
  member.request.status = .approved && member.action.state = .approved &&
    member.request.decision.any member.approvedBy && member.action.contract.actionHash =
      binding.actionHash &&
    member.action.contract.stepId = binding.stepId && member.stepReleases && member.useBinds &&
    member.reservationBinds

/-- What a released member row records. -/
def releaseRecord (decision : ApprovalDecision) (releasedAt : Time) : MemberReleaseRecord where
  approvalRequestId := member.request.id
  approvalDecisionId := decision.id
  approvalUseId := member.useId
  reservationId := member.reservation.reservationId
  releasedStepVersion := member.stepTransition.step.version
  releasedAt
  releasedActionSourceVersion := member.action.version
  releasedRequestSourceVersion := member.request.version

end ApprovalSetReleaseMember

/-- One complete current-set barrier transition. -/
structure AuthorizationSetReleaseCommand where
  set : AuthorizationSetRecord
  head : AuthorizationSetHead
  runTransition : RunTransitionResult
  members : List ApprovalSetReleaseMember
  releasedAt : Time

/-- A head selects the set that it describes. -/
def AuthorizationSetHead.selects (head : AuthorizationSetHead)
    (set : AuthorizationSetRecord) : Bool :=
  head.planHash = set.planHash && head.proposalRevision = set.proposalRevision &&
    head.membershipHash = set.membershipHash

namespace AuthorizationSetReleaseCommand

variable (command : AuthorizationSetReleaseCommand)

/-- The release member of a set member binds exactly that member. -/
def memberFits (setMember : AuthorizationSetMemberRecord)
    (member : ApprovalSetReleaseMember) : Bool :=
  let binding := member.request.request.binding
  setMember.actionId = member.actionId && setMember.actionHash =
    member.action.contract.actionHash &&
    setMember.stepId = member.stepTransition.transition.stepId &&
    setMember.stepKey = member.stepTransition.step.key &&
    command.head.currentSetId = binding.authorizationSetId &&
      command.set.planHash = binding.planHash &&
    command.set.proposalRevision = binding.proposalRevision

def membersFit : List AuthorizationSetMemberRecord → List ApprovalSetReleaseMember → Bool
  | [], [] => true
  | setMember :: setMembers, member :: members =>
      command.memberFits setMember member && membersFit setMembers members
  | _, _ => false

def valid : Bool :=
  command.set.status = .open && command.members ≠ [] && command.head.selects command.set &&
    command.runTransition.consistent &&
    command.runTransition.transition.command = .releaseApprovedPlan &&
    command.runTransition.transition.previousState = some .awaitingApproval &&
    command.runTransition.run.state = .executing &&
    command.runTransition.transition.occurredAt = command.releasedAt &&
    command.members.all (·.valid) && command.membersFit command.set.members command.members

def releaseHash (canonical : CanonicalForms)
    (members : List AuthorizationSetMemberRecord) : String :=
  canonical.releaseHash command.head.currentSetId command.set.membershipHash
    command.runTransition.run.version command.releasedAt (ApprovalLedger.hashMaterial members)

end AuthorizationSetReleaseCommand

namespace ApprovalLedger

variable (canonical : CanonicalForms) (ledger : ApprovalLedger)

/-- Insert a use under the unique constraints of its table. -/
def insertUse (useId : String) (use : ApprovalUse) : Option ApprovalLedger := do
  guard (ledger.uses.rows.all fun other => !(other.requestId = use.requestId ||
    other.decisionId = use.decisionId || other.reservationId = use.reservationId))
  let uses ← ledger.uses.insert? useId use
  return { ledger with uses }

/-- The request that a release has consumed. -/
def consumedRequest (current : StoredActionApprovalRequest) (use : ApprovalUse)
    (releasedAt : Time) :
    StoredActionApprovalRequest :=
  { current with
    status := .consumed
    version := current.version + 1
    updatedAt := releasedAt
    expiredAt := none
    replacementRequestId := none
    renewedAt := none
    supersededAt := none
    supersededReasonCode := none
    use := some use }

/-- Release one member: its step, its action and its approval. -/
def releaseMember (command : AuthorizationSetReleaseCommand)
    (setMember : AuthorizationSetMemberRecord)
    (member : ApprovalSetReleaseMember) : Option (AuthorizationSetMemberRecord × ApprovalLedger) :=
      do
  let decision ← member.request.decision
  let stepped ← ledger.rows.applyStepTransition command.runTransition.run.version .executing
    member.stepTransition.transition.expectedVersion .awaitingApproval member.stepTransition
  let stored ← stepped.action? member.actionId
  guard (stored.action.contract.authorizationSetId = command.head.currentSetId ∧
    stored.action.contract.planHash = command.set.planHash ∧
    stored.action.contract.proposalRevision = command.set.proposalRevision ∧
    stored.action.contract.stepId = setMember.stepId ∧
      stored.action.contract.stepKey = setMember.stepKey ∧
    stored.action.reservation = none ∧ stored.action.deliveryAttemptCount = 0)
  let rows ← stepped.updateAction member.actionId member.action.contract.actionHash
    member.action.version .approved fun row => { row with
      state := .dispatchReserved
      reservation := some member.reservation
      updatedAt := command.releasedAt
      version := row.version + 1 }
  let used ← ApprovalLedger.insertUse { ledger with rows } member.useId member.use
  let target := consumedRequest member.request member.use command.releasedAt
  guard (target.valid ∧ command.releasedAt < member.request.request.expiresAt ∧
    setMember.release = none)
  let consumed ← used.updateRequest member.request.id member.request.version .approved
    target.toApprovalRequestRecord
  return ({ setMember with release := some (member.releaseRecord decision command.releasedAt) },
    consumed)

def releaseMembers (command : AuthorizationSetReleaseCommand) :
    List AuthorizationSetMemberRecord → List ApprovalSetReleaseMember → ApprovalLedger →
      Option (List AuthorizationSetMemberRecord × ApprovalLedger)
  | setMember :: setMembers, member :: members, ledger => do
      let (first, released) ← ledger.releaseMember command setMember member
      let (others, after) ← releaseMembers command setMembers members released
      return (first :: others, after)
  | _, _, ledger => some ([], ledger)

/-- The head still points at the set, and the set is still open. -/
def storeSet (head : AuthorizationSetHead) (expected target : AuthorizationSetRecord) :
    Option ApprovalLedger := do
  guard (ledger.head = some head)
  let current ← ledger.sets.get? head.currentSetId
  guard (current.membershipHash = expected.membershipHash ∧ current.version = expected.version ∧
    current.status = .open ∧ current.release = none)
  return { ledger with sets := ledger.sets.set head.currentSetId target }

def releasedSet (command : AuthorizationSetReleaseCommand)
    (members : List AuthorizationSetMemberRecord) :
    AuthorizationSetRecord :=
  { command.set with
    status := .released
    version := command.set.version + 1
    updatedAt := command.releasedAt
    members
    release := some {
      releaseHash := command.releaseHash canonical members
      releasedAt := command.releasedAt
      releasedRunVersion := command.runTransition.run.version }
    terminalReasonCode := some "approval_barrier_satisfied" }

/-- Every update of a release, in one nested transaction. -/
def storeRelease (command : AuthorizationSetReleaseCommand) : Option ApprovalLedger := do
  let rows ← ledger.rows.applyRunTransition command.runTransition.transition.expectedVersion
    .awaitingApproval command.runTransition
  let (members, released) ← releaseMembers command command.set.members command.members
    { ledger with rows }
  released.storeSet command.head command.set (releasedSet canonical command members)

/-- The member's request and action are still those that the command was built from. -/
def memberCurrent (currentRequests : List StoredActionApprovalRequest)
    (member : ApprovalSetReleaseMember) : Bool :=
  currentRequests.find? (·.request.binding.actionId = member.actionId) = some member.request &&
    (ledger.rows.action? member.actionId).any fun stored =>
      stored.attemptExact && stored.action = member.action

def releaseCurrentSet (command : AuthorizationSetReleaseCommand) :
    Except Rejection ApprovalLedger := do
  require command.valid "ValueError" "authorization release requires exact immutable contracts"
  let selected ← ledger.getCurrentAuthorizationSet canonical
  require (selected = some (command.head, command.set)) "authorization_release_conflict"
    "authorization set changed before barrier release"
  let currentRequests ← ledger.listCurrentSet canonical command.set.planHash
    command.set.proposalRevision
  require (sameMembers (currentRequests.map (·.request.binding.actionId))
    (command.members.map (·.actionId))) "authorization_release_partial"
    "authorization release does not cover the complete current set"
  require (command.members.all (ledger.memberCurrent currentRequests)) "authorization_release_stale"
    "approval leaf changed before barrier release"
  let released ← requireSome (ledger.storeRelease canonical command)
    "authorization_release_conflict" "authorization barrier release lost an atomic CAS"
  let _ ← released.getCurrentAuthorizationSet canonical
  released.readBackAll canonical "released member disappeared after persistence"
    (currentRequests.map (·.id))
  return released

end ApprovalLedger

/-- Close one unreleased current set with the results for its run and its steps. -/
structure AuthorizationSetCloseCommand where
  set : AuthorizationSetRecord
  head : AuthorizationSetHead
  status : AuthorizationSetStatus
  runTransition : RunTransitionResult
  actions : List (String × ExternalAction)
  requests : List StoredActionApprovalRequest
  stepTransitions : List StepTransitionResult
  closedAt : Time

namespace AuthorizationSetCloseCommand

variable (command : AuthorizationSetCloseCommand)

def rejecting : Bool := command.status = .rejected

def valid : Bool :=
  let memberIds := command.set.members.map (·.actionId)
  command.set.status = .open && command.status ∈ [.rejected, .cancelled] &&
    command.head.selects command.set && command.runTransition.consistent &&
    command.runTransition.run.state = (if command.rejecting then .rejected else .cancelled) &&
    command.runTransition.transition.occurredAt = command.closedAt &&
    sameMembers (command.actions.map Prod.fst) memberIds &&
    sameMembers (command.requests.map (·.request.binding.actionId)) memberIds &&
    command.set.members.all (fun member =>
      command.stepTransitions.any (·.transition.stepId = member.stepId)) &&
    (command.stepTransitions.map (·.transition.stepId)).Nodup &&
    command.stepTransitions.all fun result =>
      result.consistent && result.transition.occurredAt = command.closedAt

end AuthorizationSetCloseCommand

namespace ApprovalLedger

variable (canonical : CanonicalForms) (ledger : ApprovalLedger)

/-- The request that a closure ends together with its set. -/
def supersededRequest (current : StoredActionApprovalRequest) (rejecting : Bool) (closedAt : Time) :
    StoredActionApprovalRequest :=
  { current with
    status := .superseded
    version := current.version + 1
    updatedAt := closedAt
    expiredAt := none
    replacementRequestId := none
    renewedAt := none
    supersededAt := some closedAt
    supersededReasonCode := some (if rejecting then "approval_set_rejected" else "run_cancelled")
    use := none }

def cancelRow (rejecting : Bool) (closedAt : Time) (row : ExternalActionRow) : ExternalActionRow :=
  { row with
    state := .cancelled
    version := row.version + 1
    updatedAt := closedAt
    terminalReasonCode := some (if rejecting then "sibling_approval_rejected"
      else "operator_cancelled") }

/-- End one member of a set that closes: the rejected one is only fenced, the
action of an expired one is cancelled and any other one is superseded. -/
def closeMember (command : AuthorizationSetCloseCommand) (current : StoredActionApprovalRequest)
    (stored : StoredAction) : Option ApprovalLedger := do
  let binding := current.request.binding
  guard (stored.action.contract.authorizationSetId = command.head.currentSetId)
  if command.rejecting ∧ current.status = .rejected ∧ stored.action.state = .rejected then
    return ledger
  else
    guard (current.status ∈ [.pending, .approved] ∨
      current.status = .expired ∧ stored.action.state = .awaitingApproval)
    guard (stored.action.state ∈ [.awaitingApproval, .approved] ∧ stored.action.reservation = none)
    let cancelled ← ledger.updateAction binding.actionId stored.action.contract.actionHash
      stored.action.version stored.action.state (cancelRow command.rejecting command.closedAt)
    if current.status = .expired then
      cancelled.updateRequest current.id current.version .expired current.toApprovalRequestRecord
    else
      let target := supersededRequest current command.rejecting command.closedAt
      guard target.valid
      cancelled.updateRequest current.id current.version current.status
        target.toApprovalRequestRecord

def closeMembers (command : AuthorizationSetCloseCommand)
    (currentRequests : List StoredActionApprovalRequest) :
    List AuthorizationSetMemberRecord → ApprovalLedger → Option ApprovalLedger
  | [], ledger => some ledger
  | member :: rest, ledger => do
      let current ← currentRequests.find? (·.request.binding.actionId = member.actionId)
      let stored ← ledger.rows.action? member.actionId
      let closed ← ledger.closeMember command current stored
      closeMembers command currentRequests rest closed

/-- Apply the offered transition of every step that is not yet over. -/
def closeSteps (command : AuthorizationSetCloseCommand) :
    List (String × RunStep) → Database → Option Database
  | [], rows => some rows
  | (stepId, step) :: rest, rows =>
      match command.stepTransitions.find? (·.transition.stepId = stepId) with
      | none => closeSteps command rest rows
      | some result => do
          let stepped ← rows.applyStepTransition command.runTransition.run.version
            command.runTransition.run.state step.version step.state result
          closeSteps command rest stepped

def closedSet (command : AuthorizationSetCloseCommand) : AuthorizationSetRecord :=
  { command.set with
    status := command.status
    version := command.set.version + 1
    updatedAt := command.closedAt
    terminalReasonCode := some (if command.rejecting then "approval_rejected"
      else "operator_cancelled") }

/-- Every update of a closure, in one nested transaction. -/
def storeClosure (command : AuthorizationSetCloseCommand)
    (currentRequests : List StoredActionApprovalRequest) : Option ApprovalLedger := do
  let previousState ← command.runTransition.transition.previousState
  let ended ← ledger.rows.applyRunTransition command.runTransition.transition.expectedVersion
    previousState command.runTransition
  let rows ← closeSteps command ledger.rows.steps.entries ended
  let closed ← closeMembers command currentRequests command.set.members { ledger with rows }
  closed.storeSet command.head command.set (closedSet command)

def mutableStepIds : List String :=
  (ledger.rows.steps.entries.filter fun entry =>
    entry.2.state ∈ [.pending, .ready, .awaitingApproval]).map Prod.fst

def closeCurrentSet (command : AuthorizationSetCloseCommand) : Except Rejection ApprovalLedger := do
  require command.valid "ValueError" "authorization set closure must cover every exact set member"
  let selected ← ledger.getCurrentAuthorizationSet canonical
  require (selected = some (command.head, command.set)) "authorization_close_conflict"
    "authorization set changed before terminal closure"
  let currentRequests ← ledger.listCurrentSet canonical command.set.planHash
    command.set.proposalRevision
  require (sameMembers (currentRequests.map (·.request.binding.actionId))
        (command.set.members.map (·.actionId)) ∧
      command.actions.all (fun entry => (ledger.rows.action? entry.1).any fun stored =>
        stored.attemptExact && stored.action = entry.2) ∧
      command.requests.all fun offered => currentRequests.find? (fun stored =>
        stored.request.binding.actionId = offered.request.binding.actionId) = some offered)
    "authorization_close_stale"
    "authorization closure sources differ from the current exact set"
  require (sameMembers (command.stepTransitions.map (·.transition.stepId)) ledger.mutableStepIds)
    "authorization_close_partial" "authorization closure must terminalize every mutable plan step"
  let closed ← requireSome (ledger.storeClosure command currentRequests)
    "authorization_close_conflict" "authorization-set closure lost an atomic CAS"
  let _ ← closed.getCurrentAuthorizationSet canonical
  closed.readBackAll canonical "closed authorization member disappeared"
    (currentRequests.map (·.id))
  return closed

end ApprovalLedger

end MarketingAgents
