import MarketingAgents.Persistence.Database

namespace MarketingAgents

open Library

inductive ReleaseCallMode where
  | firstCall
  | providerRetry
deriving DecidableEq, Repr

/-- The exact committed barrier snapshot required by every dispatch mutation. -/
structure ReleaseAuthority where
  authorizationSetId : String
  membershipHash : String
  releaseHash : String
  authorizationSetVersion : Nat
  headVersion : Nat
  runId : String
  releasedRunVersion : Nat
  actionId : String
  actionHash : String
  stepId : String
  stepKey : String
  releasedStepVersion : Nat
  stepState : StepState
  stepVersion : Nat
  callMode : ReleaseCallMode
  priorStartedAttemptNumber : Option Nat
  approvalRequestId : String
  approvalDecisionId : String
  approvalUseId : String
  reservationId : String
deriving DecidableEq

namespace StoredAction

variable (stored : StoredAction)

/-- Attempts below this number are history to the release fence. -/
def historyLimit : Nat :=
  match stored.action.lease with
  | some lease => lease.attemptNumber
  | none => stored.action.deliveryAttemptCount + 1

def attemptNumbers : List Nat := stored.attempts.map (·.attemptNumber)

def maximumAttempt : Nat := stored.attemptNumbers.foldr max 0

def history : List DispatchAttempt :=
  stored.attempts.filter fun attempt => attempt.attemptNumber < stored.historyLimit

/-- A finished attempt that leaves the action free to be claimed again. -/
def releasedAttempt (support : IdempotencySupport) (attempt : DispatchAttempt) : Bool :=
  attempt.idempotencySupport = support &&
    attempt.conclusion = some (if attempt.started then .providerRetry else .preCallExpired)

def callModeFence (authority : ReleaseAuthority) : Bool :=
  match authority.callMode, authority.priorStartedAttemptNumber with
  | .firstCall, _ => stored.history.all fun attempt => !attempt.started
  | .providerRetry, none => false
  | .providerRetry, some prior =>
      stored.history.any (fun attempt => attempt.attemptNumber = prior &&
        attempt.idempotencySupport = stored.action.contract.idempotencySupport && attempt.started &&
        attempt.conclusion = some .providerRetry) &&
      stored.history.all (fun attempt => !(prior < attempt.attemptNumber && attempt.started)) &&
      stored.action.contract.idempotencySupport.retryable

/-- The delivery history admits the call mode the authority asks for. -/
def historyFence (authority : ReleaseAuthority) : Bool :=
  stored.attempts.length = stored.action.deliveryAttemptCount &&
    stored.maximumAttempt = stored.action.deliveryAttemptCount &&
    stored.history.all (releasedAttempt stored.action.contract.idempotencySupport) &&
    stored.callModeFence authority

end StoredAction

namespace Database

variable (db : Database)

/-- The released member still agrees with the approval rows that released it. -/
def memberReleased (authority : ReleaseAuthority) (member : AuthorizationSetMember)
    (setRelease : SetRelease) : Bool :=
  match member.release with
  | none => false
  | some release =>
      match db.approvalUses.get? release.approvalUseId,
          db.approvalRequests.get? release.approvalRequestId with
      | some use, some request =>
          member.actionId = authority.actionId && member.actionHash = authority.actionHash &&
          member.stepId = authority.stepId && member.stepKey = authority.stepKey &&
          release.releasedStepVersion = authority.releasedStepVersion &&
          release.approvalRequestId = authority.approvalRequestId &&
          release.approvalDecisionId = authority.approvalDecisionId &&
          release.approvalUseId = authority.approvalUseId &&
          release.reservationId = authority.reservationId &&
          release.releasedAt = setRelease.releasedAt &&
          use.requestId = authority.approvalRequestId &&
            use.decisionId = authority.approvalDecisionId &&
          use.actionId = authority.actionId && use.actionHash = authority.actionHash &&
          use.authorizationSetId = authority.authorizationSetId &&
          use.stepId = authority.stepId && use.stepKey = authority.stepKey &&
          use.reservationId = authority.reservationId && use.usedAt = setRelease.releasedAt &&
          request.actionId = authority.actionId && request.actionHash = authority.actionHash &&
          request.authorizationSetId = authority.authorizationSetId &&
          request.stepId = authority.stepId && request.stepKey = authority.stepKey &&
          request.status = .consumed
      | _, _ => false

/-- The current authorization set is the released set the authority was read from. -/
def setReleased (authority : ReleaseAuthority) : Bool :=
  match db.authorizationHead with
  | none => false
  | some head =>
      match db.authorizationSets.get? head.currentSetId with
      | none => false
      | some set =>
          match set.release with
          | none => false
          | some setRelease =>
              set.planHash = head.planHash && set.proposalRevision = head.proposalRevision &&
              set.membershipHash = head.membershipHash &&
              authority.runId = db.runId && head.currentSetId = authority.authorizationSetId &&
              head.membershipHash = authority.membershipHash &&
                head.version = authority.headVersion &&
              set.status = .released && set.version = authority.authorizationSetVersion &&
              setRelease.releaseHash = authority.releaseHash &&
              setRelease.releasedRunVersion = authority.releasedRunVersion &&
              set.members.any fun member => db.memberReleased authority member setRelease

def runReleased (authority : ReleaseAuthority) : Bool :=
  db.run.state = .executing && db.run.version = authority.releasedRunVersion &&
    db.run.approvalRequired = some true

def stepReleased (authority : ReleaseAuthority) : Bool :=
  match db.step? authority.stepId with
  | none => false
  | some step =>
      step.key = authority.stepKey && step.effect = .write &&
        step.state = authority.stepState && step.version = authority.stepVersion

def reservationReleased (authority : ReleaseAuthority) (action : ExternalAction) : Bool :=
  match action.reservation with
  | none => false
  | some reservation =>
      action.contract.actionHash = authority.actionHash &&
      action.contract.authorizationSetId = authority.authorizationSetId &&
      action.contract.runId = authority.runId && action.contract.stepId = authority.stepId &&
      action.contract.stepKey = authority.stepKey &&
      reservation.reservationId = authority.reservationId &&
      reservation.authorizationSetId = authority.authorizationSetId &&
      reservation.approvalRequestId = authority.approvalRequestId &&
      reservation.approvalDecisionId = authority.approvalDecisionId

/-- The fence evaluated inside both dispatch updates. -/
def releaseFence (authority : ReleaseAuthority) (stored : StoredAction) : Bool :=
  db.setReleased authority && db.runReleased authority && db.stepReleased authority &&
    reservationReleased authority stored.action && stored.historyFence authority &&
    !db.unsatisfiedDependency authority.stepId

end Database

end MarketingAgents
