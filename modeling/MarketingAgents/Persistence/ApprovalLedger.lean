import Mathlib
import MarketingAgents.Domain.ApprovalRequests
import MarketingAgents.Persistence.ApprovalRepository

namespace MarketingAgents

open Library

/-! # The approval aggregate of one run

Its rows, and the reader that accepts them only when every request, decision,
use, member and action agree.  The row digests are left out: every write seals
its row and every read verifies the seal.
-/

/-- The exact action that is authorized, with its minimized payload as canonical JSON. -/
structure CanonicalActionEnvelope where
  actionId : String
  authorizationSetId : String
  runId : String
  planHash : String
  proposalRevision : Nat
  stepId : String
  stepKey : String
  templateId : String
  instanceId : String
  actionType : String
  capabilityId : String
  connectorFamily : String
  bindingId : String
  destination : String
  payloadSchemaId : String
  minimizedPayload : String
deriving DecidableEq

/-- The columns of an action row that no delivery changes. -/
structure SealedAction where
  envelope : CanonicalActionEnvelope
  policy : ApprovalPolicySnapshot
  redactedProjection : ApprovalProjection
  requestSchemaId : String
  bindingConfigurationRevision : Nat
deriving DecidableEq

/-- The columns of a planned step that its approval is checked against. -/
structure SealedStep where
  createdAt : Time
  runId : String
  capabilityId : String
  bindingId : String
  bindingConfigurationRevision : Nat
  configurationRevision : Nat
  idempotencySupport : IdempotencySupport
  templateId : String
  selectedInstanceId : String
  approvalPolicyId : String
  approvalRequiredRoles : Finset String
  approvalRequiredScopes : Finset String
  approvalExpiresAfterSeconds : Nat
  approvalAllowSelfApproval : Bool
  requestRedactionFields : List String
deriving DecidableEq

structure MemberReleaseRecord extends MemberRelease where
  releasedActionSourceVersion : Nat
  releasedRequestSourceVersion : Nat
deriving DecidableEq

structure AuthorizationSetMemberRecord where
  actionId : String
  actionHash : String
  stepId : String
  stepKey : String
  release : Option MemberReleaseRecord
deriving DecidableEq

structure SetSupersession where
  bySetId : String
  supersededAt : Time
deriving DecidableEq

structure AuthorizationSetRecord where
  planHash : String
  proposalRevision : Nat
  membershipHash : String
  members : List AuthorizationSetMemberRecord
  status : AuthorizationSetStatus
  version : Nat
  openedAt : Time
  updatedAt : Time
  release : Option SetRelease
  terminalReasonCode : Option String
  supersession : Option SetSupersession
deriving DecidableEq

/-- One released member as the release hash covers it. -/
structure ReleaseHashMaterial where
  actionId : String
  actionHash : String
  stepId : String
  release : MemberReleaseRecord
deriving DecidableEq

/-- The canonical forms that rows are compared with.  Nothing about the
aggregate depends on what they compute. -/
structure CanonicalForms where
  actionHash : CanonicalActionEnvelope → String
  semanticActionHash : CanonicalActionEnvelope → String
  expectedProjection : CanonicalActionEnvelope → List String → Option ApprovalProjection
  membershipHash : String → String → Nat → List (String × String × String × String) → String
  releaseHash : String → String → Nat → Time → List ReleaseHashMaterial → String

/-- The approval rows of one run beside its other rows. -/
structure ApprovalLedger where
  rows : Database
  sealedActions : Table String SealedAction
  sealedSteps : Table String SealedStep
  head : Option AuthorizationSetHead
  sets : Table String AuthorizationSetRecord
  requests : Table String ApprovalRequestRecord
  /-- Decisions under the request they decide, of which each has at most one. -/
  decisions : Table String ApprovalDecision
  uses : Table String ApprovalUse

namespace AuthorizationSetMemberRecord

variable (member : AuthorizationSetMemberRecord)

def identity : String × String × String × String :=
  (member.actionId, member.actionHash, member.stepId, member.stepKey)

end AuthorizationSetMemberRecord

namespace AuthorizationSetRecord

variable (set : AuthorizationSetRecord)

def membersDistinct : Bool :=
  (set.members.map (·.actionId)).Nodup && (set.members.map (·.stepId)).Nodup &&
    (set.members.map (·.stepKey)).Nodup

/-- The one-way lifecycle of a set. -/
def lifecycleValid (setId : String) : Bool :=
  match set.status with
  | .open =>
      set.version = 1 && set.updatedAt = set.openedAt && set.release = none &&
        set.terminalReasonCode = none && set.supersession = none
  | .released =>
      set.version = 2 && set.supersession = none &&
        set.terminalReasonCode = some "approval_barrier_satisfied" &&
        set.release.any fun release => 1 ≤ release.releasedRunVersion &&
          release.releasedAt = set.updatedAt
  | .rejected =>
      set.version = 2 && set.release = none && set.supersession = none &&
        set.terminalReasonCode = some "approval_rejected"
  | .cancelled =>
      set.version = 2 && set.release = none && set.supersession = none &&
        set.terminalReasonCode = some "operator_cancelled"
  | .superseded =>
      set.version = 2 && set.release = none &&
        set.terminalReasonCode = some "approval_set_superseded" &&
        set.supersession.any fun supersession =>
          supersession.bySetId ≠ setId && supersession.supersededAt = set.updatedAt

def valid (canonical : CanonicalForms) (setId : String) : Bool :=
  1 ≤ set.proposalRevision && set.members ≠ [] && set.openedAt ≤ set.updatedAt &&
    set.membersDistinct &&
    set.membershipHash = canonical.membershipHash setId set.planHash set.proposalRevision
      (set.members.map (·.identity)) &&
    set.lifecycleValid setId

end AuthorizationSetRecord

/-- The row of an action agrees with the unfinished attempt that its lease names. -/
def StoredAction.attemptExact (stored : StoredAction) : Bool :=
  match stored.action.lease with
  | none => true
  | some lease =>
      match stored.attempts.filter (·.attemptNumber = lease.attemptNumber) with
      | [attempt] =>
          attempt.idempotencySupport = stored.action.contract.idempotencySupport &&
            attempt.leaseOwner = lease.owner && attempt.claimedAt = lease.claimedAt &&
            attempt.leaseExpiresAt = lease.expiresAt && attempt.call = stored.action.call &&
            attempt.completion = none
      | _ => false

/-- The history of a step, in the order of its sequence numbers, is contiguous
and ends in its row. -/
def historyExact (createdAt : Time) (step : RunStep) (history : List StepStateTransition) : Bool :=
  history.head?.any (fun first => first.command = .initializeStep && first.previousState = none &&
      first.newState = .pending && first.reasonCode = "plan_step_recorded" &&
      first.occurredAt = createdAt && first.expectedVersion = 0) &&
    history.map (·.sequence) = List.range' 1 history.length &&
    history.all (fun transition => transition.sequence = transition.resultingVersion) &&
    (history.drop 1).map (·.previousState) = (history.dropLast).map (some ·.newState) &&
    history.getLast?.any fun last => last.newState = step.state &&
      last.resultingVersion = step.version &&
      last.occurredAt = step.updatedAt && step.terminalReasonCode.all (· = last.reasonCode)

namespace ApprovalLedger

variable (canonical : CanonicalForms) (ledger : ApprovalLedger)

def stepHistory (stepId : String) : List StepStateTransition :=
  ledger.rows.stepTransitions.filter (·.stepId = stepId)

def stepReadable (entry : String × RunStep) : Bool :=
  match ledger.sealedSteps.get? entry.1 with
  | none => false
  | some sealedRow => historyExact sealedRow.createdAt entry.2 (ledger.stepHistory entry.1)

/-- Load the steps of the plan; the plan itself is sealed and stays as it was validated. -/
def stepsForRun : Except Rejection (List (String × RunStep)) := do
  require (ledger.rows.steps.entries.all ledger.stepReadable) "step_history_state_mismatch"
    "stored plan step does not match the end of its transition history"
  return ledger.rows.steps.entries

/-- The WRITE steps of the plan in their order. -/
def writeSteps : List (String × RunStep) :=
  ledger.rows.steps.entries.filter fun entry => entry.2.effect = .write

def decision? (decisionId : String) : Option ApprovalDecision :=
  ledger.decisions.rows.find? (·.id = decisionId)

def use? (requestId : String) : Option ApprovalUse :=
  ledger.uses.rows.find? (·.requestId = requestId)

/-- The transition that released the run, and a run that has not gone back behind it. -/
def runReleasedBy (release : SetRelease) : Bool :=
  release.releasedRunVersion ≤ ledger.rows.run.version &&
    match ledger.rows.runTransitions.find? (·.sequence = release.releasedRunVersion) with
    | none => false
    | some transition =>
        transition.command = .releaseApprovedPlan &&
          transition.previousState = some .awaitingApproval &&
          transition.newState = .executing && transition.occurredAt = release.releasedAt &&
          transition.resultingVersion = release.releasedRunVersion

def useMatches (setId : String) (setRelease : SetRelease) (member : AuthorizationSetMemberRecord)
    (release : MemberReleaseRecord) (use : ApprovalUse) : Bool :=
  use.requestId = release.approvalRequestId && use.decisionId = release.approvalDecisionId &&
    use.actionId = member.actionId && use.actionHash = member.actionHash &&
    use.authorizationSetId = setId && use.stepId = member.stepId && use.stepKey = member.stepKey &&
    use.reservationId = release.reservationId && use.usedAt = release.releasedAt &&
    release.releasedAt = setRelease.releasedAt

def consumedBy (setRelease : SetRelease) (release : MemberReleaseRecord)
    (record : ApprovalRequestRecord) : Bool :=
  record.status = .consumed && record.version = release.releasedRequestSourceVersion + 1 &&
    record.updatedAt = setRelease.releasedAt && setRelease.releasedAt < record.request.expiresAt

/-- The decision behind a release was an authenticated approval with exactly the
required authority. -/
def authorizedBy (setRelease : SetRelease) (release : MemberReleaseRecord)
    (record : ApprovalRequestRecord) (decision : ApprovalDecision) : Bool :=
  decision.requestId = release.approvalRequestId && decision.decision = .approve &&
    decision.authenticationMethod ∈ ["local_fixed", "bearer"] &&
    decision.authorityRoles = record.request.binding.policy.requiredRoles ∪ {"approver"} &&
    decision.authorityScopes = record.request.binding.policy.requiredScopes ∪
      {"approvals:decide"} &&
    (record.request.binding.policy.allowSelfApproval ||
      decision.actorId ≠ record.request.requestedBy) &&
    decision.decidedAt ≤ setRelease.releasedAt

def reservationMatches (setId : String) (release : MemberReleaseRecord)
    (stored : StoredAction) : Bool :=
  release.releasedActionSourceVersion + 1 ≤ stored.action.version &&
    stored.action.reservation.any fun reservation =>
      reservation.reservationId = release.reservationId && reservation.authorizationSetId = setId &&
        reservation.approvalRequestId = release.approvalRequestId &&
        reservation.approvalDecisionId = release.approvalDecisionId

def stepReleasedBy (setRelease : SetRelease) (stepId : String)
    (release : MemberReleaseRecord) : Bool :=
  match ledger.rows.step? stepId,
      ledger.rows.stepTransition? stepId release.releasedStepVersion with
  | some step, some transition =>
      release.releasedStepVersion ≤ step.version && transition.command = .releaseApproval &&
        transition.previousState = some .awaitingApproval && transition.newState = .ready &&
        transition.occurredAt = setRelease.releasedAt &&
        transition.resultingVersion = release.releasedStepVersion
  | _, _ => false

/-- Every row that a released member names still witnesses its release. -/
def memberReleased (setId : String) (setRelease : SetRelease)
    (member : AuthorizationSetMemberRecord) :
    Bool :=
  match member.release with
  | none => false
  | some release =>
      match ledger.uses.get? release.approvalUseId, ledger.rows.action? member.actionId,
          ledger.requests.get? release.approvalRequestId,
            ledger.decision? release.approvalDecisionId with
      | some use, some stored, some record, some decision =>
          useMatches setId setRelease member release use && consumedBy setRelease release record &&
            authorizedBy setRelease release record decision &&
              reservationMatches setId release stored &&
            ledger.stepReleasedBy setRelease member.stepId release
      | _, _, _, _ => false

def hashMaterial (members : List AuthorizationSetMemberRecord) : List ReleaseHashMaterial :=
  members.filterMap fun member => member.release.map fun release =>
    { actionId := member.actionId, actionHash := member.actionHash,
      stepId := member.stepId, release }

/-- A released set retains the whole evidence of its release, any other set none. -/
def releaseWitnessed (setId : String) (set : AuthorizationSetRecord) : Bool :=
  match set.release with
  | none => set.members.all (·.release = none)
  | some release =>
      ledger.runReleasedBy release && set.members.all (ledger.memberReleased setId release) &&
        release.releaseHash = canonical.releaseHash setId set.membershipHash
          release.releasedRunVersion release.releasedAt (hashMaterial set.members)

def hydrateAuthorizationSet (setId : String) (set : AuthorizationSetRecord) :
    Except Rejection Unit := do
  require (set.valid canonical setId) "authorization_set_corrupt"
    "authorization set failed exact aggregate hydration"
  let _ ← ledger.stepsForRun
  require (ledger.writeSteps.map (fun entry => (entry.1, entry.2.key)) =
      set.members.map fun member => (member.stepId, member.stepKey))
    "authorization_set_membership_corrupt"
    "authorization set does not retain canonical complete WRITE-step order"
  require (ledger.releaseWitnessed canonical setId set) "authorization_set_release_corrupt"
    "released member use and action reservation disagree"

def getCurrentAuthorizationSet :
    Except Rejection (Option (AuthorizationSetHead × AuthorizationSetRecord)) := do
  match ledger.head with
  | none =>
      require (ledger.sets.entries = []) "authorization_set_head_missing"
        "authorization set exists without its current head"
      return none
  | some head =>
      let set ← requireSome (ledger.sets.get? head.currentSetId) "authorization_set_missing"
        "authorization set head points at a missing epoch"
      ledger.hydrateAuthorizationSet canonical head.currentSetId set
      require (head.planHash = set.planHash ∧ head.proposalRevision = set.proposalRevision ∧
          head.membershipHash = set.membershipHash) "authorization_set_head_corrupt"
        "authorization set head differs from the selected epoch"
      return some (head, set)

/-- What the sealed action and step behind a request authorize. -/
structure ApprovalAuthority where
  stored : StoredAction
  binding : ApprovalBinding

/-- The binding that a request of an action has to carry. -/
def bindingOf (stored : StoredAction) (sealedRow : SealedAction) : ApprovalBinding where
  actionId := sealedRow.envelope.actionId
  actionHash := stored.action.contract.actionHash
  authorizationSetId := sealedRow.envelope.authorizationSetId
  runId := sealedRow.envelope.runId
  planHash := sealedRow.envelope.planHash
  proposalRevision := sealedRow.envelope.proposalRevision
  stepId := sealedRow.envelope.stepId
  stepKey := sealedRow.envelope.stepKey
  templateId := sealedRow.envelope.templateId
  instanceId := sealedRow.envelope.instanceId
  actionType := sealedRow.envelope.actionType
  capabilityId := sealedRow.envelope.capabilityId
  connectorFamily := sealedRow.envelope.connectorFamily
  bindingId := sealedRow.envelope.bindingId
  semanticActionHash := canonical.semanticActionHash sealedRow.envelope
  redactedDestination := sealedRow.redactedProjection.destination
  redactedProjection := sealedRow.redactedProjection
  policy := sealedRow.policy

/-- The sealed columns of an action and its step agree with the action envelope. -/
def authorityConsistent (actionId stepId : String) (stored : StoredAction)
    (sealedRow : SealedAction) (step : RunStep) (planned : SealedStep) : Bool :=
  let contract := stored.action.contract
  actionId = sealedRow.envelope.actionId && contract.runId = sealedRow.envelope.runId &&
    sealedRow.envelope.runId = planned.runId && contract.stepId = sealedRow.envelope.stepId &&
    sealedRow.envelope.stepId = stepId && sealedRow.envelope.stepKey = step.key &&
    sealedRow.envelope.planHash = step.planHash &&
      contract.planHash = sealedRow.envelope.planHash &&
    contract.proposalRevision = sealedRow.envelope.proposalRevision &&
    contract.authorizationSetId = sealedRow.envelope.authorizationSetId &&
    contract.actionHash = canonical.actionHash sealedRow.envelope &&
    contract.capabilityId = sealedRow.envelope.capabilityId &&
    sealedRow.envelope.capabilityId = planned.capabilityId &&
    sealedRow.envelope.connectorFamily = step.connectorFamily &&
    contract.bindingId = sealedRow.envelope.bindingId &&
      sealedRow.envelope.bindingId = planned.bindingId &&
    sealedRow.requestSchemaId = sealedRow.envelope.payloadSchemaId &&
    some sealedRow.requestSchemaId = step.requestSchemaId &&
    sealedRow.bindingConfigurationRevision = planned.bindingConfigurationRevision &&
    planned.bindingConfigurationRevision = planned.configurationRevision &&
    contract.idempotencySupport = planned.idempotencySupport &&
    contract.timeoutSeconds = effectiveCallTimeoutSeconds step.runtimePolicy step.timeoutSeconds &&
    planned.templateId = sealedRow.envelope.templateId &&
    planned.selectedInstanceId = sealedRow.envelope.instanceId &&
    planned.approvalPolicyId = sealedRow.policy.policyId &&
    planned.approvalRequiredRoles = sealedRow.policy.requiredRoles &&
    planned.approvalRequiredScopes = sealedRow.policy.requiredScopes &&
    planned.approvalExpiresAfterSeconds = sealedRow.policy.expiresAfterSeconds &&
    planned.approvalAllowSelfApproval = sealedRow.policy.allowSelfApproval &&
    canonical.expectedProjection sealedRow.envelope planned.requestRedactionFields =
      some sealedRow.redactedProjection

def authority (actionId stepId : String) : Except Rejection ApprovalAuthority := do
  let stored ← requireSome (ledger.rows.action? actionId) "approval_authority_missing"
    "approval request lost its authoritative action or RunStep"
  require stored.attemptExact "approval_authority_corrupt"
    "approval action failed exact aggregate hydration"
  let sealedRow ← requireSome (ledger.sealedActions.get? actionId) "approval_authority_missing"
    "approval request lost its authoritative action or RunStep"
  let _ ← ledger.stepsForRun
  let step ← requireSome (ledger.rows.step? stepId) "approval_authority_missing"
    "approval request lost its authoritative action or RunStep"
  let planned ← requireSome (ledger.sealedSteps.get? stepId) "approval_authority_missing"
    "approval request lost its authoritative action or RunStep"
  require (authorityConsistent canonical actionId stepId stored sealedRow step planned)
    "approval_authority_corrupt"
    "action, step, policy, or safe projection authority is inconsistent"
  return { stored, binding := bindingOf canonical stored sealedRow }

/-- A use spends the reservation that its action carries. -/
def useReserved (stored : StoredActionApprovalRequest) (action : ExternalAction) : Bool :=
  match stored.use with
  | none => true
  | some use =>
      match action.reservation with
      | none => false
      | some reservation =>
          let binding := stored.request.binding
          use.reservationId = reservation.reservationId &&
            reservation.authorizationSetId = binding.authorizationSetId &&
            reservation.approvalRequestId = stored.id &&
            reservation.approvalDecisionId = use.decisionId &&
            reservation.actionHash = binding.actionHash &&
            reservation.capabilityId = binding.capabilityId &&
            reservation.bindingId = binding.bindingId &&
            reservation.idempotencyKey = action.contract.idempotencyKey &&
            use.usedAt = reservation.reservedAt

/-- An expired request of a closed set, whose action was cancelled with the set. -/
def terminalExpiry (stored : StoredActionApprovalRequest) (action : ExternalAction) : Bool :=
  stored.status = .expired && action.state = .cancelled &&
    match ledger.sets.get? stored.request.binding.authorizationSetId with
    | none => false
    | some set =>
        action.updatedAt = set.updatedAt &&
          match set.status with
          | .rejected => action.terminalReasonCode = some "sibling_approval_rejected"
          | .cancelled => action.terminalReasonCode = some "operator_cancelled"
          | _ => false

/-- The action that a superseded request was ended with. -/
def supersededAction (stored : StoredActionApprovalRequest) (action : ExternalAction) : Bool :=
  some action.updatedAt = stored.supersededAt &&
    match stored.supersededReasonCode with
    | some "approval_set_rejected" =>
        action.state = .cancelled && action.terminalReasonCode = some "sibling_approval_rejected"
    | some "approval_set_superseded" =>
        action.state = .superseded && action.terminalReasonCode = some "approval_set_superseded"
    | some "run_cancelled" =>
        action.state = .cancelled && action.terminalReasonCode = some "operator_cancelled"
    | _ => false

/-- The states that an action can reach once its approval was consumed. -/
def reservedStates : List ExternalActionState :=
  [.dispatchReserved, .dispatching, .succeeded, .failed, .cancelled, .outcomeUnknown]

/-- The current request of an action and the state of the action agree. -/
def actionAgrees (stored : StoredActionApprovalRequest) (action : ExternalAction) : Bool :=
  match stored.status with
  | .pending => action.state = .awaitingApproval && action.reservation = none
  | .expired =>
      action.reservation = none &&
        (action.state = .awaitingApproval || ledger.terminalExpiry stored action)
  | .approved =>
      action.state = .approved && action.reservation = none &&
        stored.decision.any (action.updatedAt = ·.decidedAt)
  | .rejected =>
      action.state = .rejected && action.reservation = none &&
        stored.decision.any (action.updatedAt = ·.decidedAt)
  | .consumed => stored.use.isSome && action.reservation.isSome && action.state ∈ reservedStates
  | .superseded => action.reservation = none && supersededAction stored action

def storedRequest (requestId : String) (record : ApprovalRequestRecord) :
    StoredActionApprovalRequest where
  toApprovalRequestRecord := record
  id := requestId
  decision := ledger.decisions.get? requestId
  use := ledger.use? requestId

def hydrate (requestId : String) (record : ApprovalRequestRecord) :
    Except Rejection StoredActionApprovalRequest := do
  let authority ← ledger.authority canonical record.request.binding.actionId
    record.request.binding.stepId
  require (record.request.binding.policy = authority.binding.policy) "approval_policy_corrupt"
    "request policy differs from action/step authority"
  require (record.request.binding = authority.binding ∧
      (record.request.generation ≠ 1 ∨ record.request.requestedAt =
        authority.stored.action.createdAt))
    "approval_request_corrupt"
    "persisted request differs from its exact action and RunStep authority"
  let stored := ledger.storedRequest requestId record
  require (useReserved stored authority.stored.action ∧
      (record.replacementRequestId ≠ none ∨ ledger.actionAgrees stored authority.stored.action) ∧
      stored.valid) "approval_request_corrupt"
    "persisted approval lifecycle is invalid"
  return stored

def hydrateAll : List (String × ApprovalRequestRecord) →
    Except Rejection (List StoredActionApprovalRequest)
  | [] => .ok []
  | (requestId, record) :: rest => do
      let first ← ledger.hydrate canonical requestId record
      let others ← hydrateAll rest
      return first :: others

/-- The request rows of one epoch by their generation. -/
def epochRequests (planHash : String) (proposalRevision : Nat) :
    List (String × ApprovalRequestRecord) :=
  (ledger.requests.entries.filter fun entry =>
    entry.2.request.binding.planHash = planHash &&
      entry.2.request.binding.proposalRevision = proposalRevision).insertionSort
    fun left right => left.2.request.generation ≤ right.2.request.generation

/-- The actions of one epoch in the order of their steps. -/
def epochActions (planHash : String) (proposalRevision : Nat) : List (String × StoredAction) :=
  ledger.rows.steps.entries.flatMap fun step => ledger.rows.actions.entries.filter fun entry =>
    entry.2.action.contract.stepId = step.1 && entry.2.action.contract.planHash = planHash &&
      entry.2.action.contract.proposalRevision = proposalRevision

/-- The version that the history of its requests gives an action before it is reserved. -/
def expectedActionVersion (setStatus : AuthorizationSetStatus)
    (chain : List StoredActionApprovalRequest) : Nat :=
  2 + (chain.map fun leaf =>
      if leaf.decision.isSome then (if leaf.expiredAt.isSome then 2 else 1) else 0).sum +
    match chain.getLast? with
    | none => 0
    | some last =>
        if last.status = .superseded then 1
        else if last.status = .expired ∧ setStatus ∈ [.rejected, .cancelled] then 1
        else 0

def renewalsLinked : List StoredActionApprovalRequest → Bool
  | first :: second :: rest =>
    first.renewedBy second.id second.request && renewalsLinked (second :: rest)
  | _ => true

/-- The current request of one action, after its whole chain has been checked. -/
def currentRequest (setStatus : AuthorizationSetStatus)
    (requests : List StoredActionApprovalRequest)
    (actionId : String) (stored : StoredAction) : Except Rejection StoredActionApprovalRequest := do
  let chain := requests.filter (·.request.binding.actionId = actionId)
  require (chain.map (·.request.generation) = List.range' 1 chain.length) "approval_generation_gap"
    "approval request generations are not contiguous"
  require (renewalsLinked chain) "approval_renewal_chain_corrupt"
    "approval renewal chain mixes action or set authority"
  let last ← requireSome chain.getLast? "partial_approval_set"
    "approval request set is missing or has unexpected action members"
  require (last.replacementRequestId = none) "approval_renewal_chain_corrupt"
    "current approval generation points at a missing replacement"
  require (last.status = .consumed ∨ stored.action.version = expectedActionVersion setStatus chain)
    "approval_action_lifecycle_corrupt" "current approval generation and action version disagree"
  require (last.status ≠ .consumed ∨ expectedActionVersion setStatus chain + 1 ≤
    stored.action.version)
    "approval_action_lifecycle_corrupt" "consumed approval action predates its reservation"
  return last

def currentRequests (setStatus : AuthorizationSetStatus)
    (requests : List StoredActionApprovalRequest) :
    List (String × StoredAction) → Except Rejection (List StoredActionApprovalRequest)
  | [] => .ok []
  | (actionId, stored) :: rest => do
      let first ← currentRequest setStatus requests actionId stored
      let others ← currentRequests setStatus requests rest
      return first :: others

/-- The current request of every action of the run's current epoch. -/
def listCurrentSet (planHash : String) (proposalRevision : Nat) :
    Except Rejection (List StoredActionApprovalRequest) := do
  let selected ← ledger.getCurrentAuthorizationSet canonical
  require (selected.all fun current => current.2.planHash = planHash &&
      current.2.proposalRevision = proposalRevision) "authorization_set_epoch_stale"
    "caller-selected approval epoch is not the current authorization set"
  let actions := ledger.epochActions planHash proposalRevision
  let requests ← ledger.hydrateAll canonical (ledger.epochRequests planHash proposalRevision)
  let _ ← ledger.stepsForRun
  require (sameMembers (actions.map (·.2.action.contract.stepId)) (ledger.writeSteps.map Prod.fst))
    "incomplete_action_set" "approval actions must exactly cover every validated write step"
  if actions = [] then
    require (requests = []) "approval_action_set_missing"
      "approval requests exist without their authoritative action set"
    return []
  else
    require (∀ left ∈ actions, ∀ right ∈ actions,
        left.2.action.contract.authorizationSetId = right.2.action.contract.authorizationSetId)
      "authorization_set_corrupt"
      "one plan revision must retain one authoritative authorization set"
    let (_, set) ← requireSome selected "authorization_set_head_missing"
      "approval action set has no current authorization-set head"
    require (actions.map Prod.fst = set.members.map (·.actionId))
      "authorization_set_membership_corrupt"
      "approval action set differs from the current exact membership"
    require (sameMembers (requests.map (·.request.binding.actionId)) (actions.map Prod.fst))
      "partial_approval_set" "approval request set is missing or has unexpected action members"
    currentRequests set.status requests actions

/-- A request that is stored with its decision and its use, behind a readable current set. -/
def get (requestId : String) : Except Rejection (Option StoredActionApprovalRequest) := do
  match ledger.requests.get? requestId with
  | none => return none
  | some record =>
      let stored ← ledger.hydrate canonical requestId record
      let _ ← ledger.listCurrentSet canonical record.request.binding.planHash
        record.request.binding.proposalRevision
      return some stored

/-- The tables that the delivery operations work on, with the approval rows as they see them. -/
def database : Database :=
  { ledger.rows with
    authorizationHead := ledger.head
    authorizationSets := ledger.sets.mapKeyed fun _ set => {
      planHash := set.planHash
      proposalRevision := set.proposalRevision
      membershipHash := set.membershipHash
      members := set.members.map fun member => {
        actionId := member.actionId
        actionHash := member.actionHash
        stepId := member.stepId
        stepKey := member.stepKey
        release := member.release.map (·.toMemberRelease) }
      status := set.status
      version := set.version
      openedAt := set.openedAt
      updatedAt := set.updatedAt
      release := set.release
      terminalReasonCode := set.terminalReasonCode }
    approvalRequests := ledger.requests.mapKeyed fun requestId record => {
      generation := record.request.generation
      actionId := record.request.binding.actionId
      actionHash := record.request.binding.actionHash
      authorizationSetId := record.request.binding.authorizationSetId
      stepId := record.request.binding.stepId
      stepKey := record.request.binding.stepKey
      expiresAt := record.request.expiresAt
      status := record.status
      decisionId := (ledger.decisions.get? requestId).map (·.id)
      version := record.version
      updatedAt := record.updatedAt
      replacementRequestId := record.replacementRequestId }
    approvalUses := ledger.uses }

end ApprovalLedger

end MarketingAgents
