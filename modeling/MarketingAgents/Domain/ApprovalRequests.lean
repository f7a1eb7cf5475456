import Mathlib.Data.Finset.Insert
import Mathlib.Data.Finset.Lattice.Basic
import MarketingAgents.Domain.Approval
import MarketingAgents.Domain.Rejection

namespace MarketingAgents

/-! # Approval requests

The immutable leaf that one approval binds, the decision and the use that are
recorded for it, and the lifecycle around them.
-/

inductive ApprovalDecisionKind where
  | approve
  | reject
deriving DecidableEq, Repr

/-- The approval policy as it was sealed with an action. -/
structure ApprovalPolicySnapshot where
  policyId : String
  requiredRoles : Finset String
  requiredScopes : Finset String
  expiresAfterSeconds : Nat
  allowSelfApproval : Bool
  finite : 60 ≤ expiresAfterSeconds ∧ expiresAfterSeconds ≤ 86400
deriving DecidableEq

/-- What approvers are shown of an action, with its payload as canonical JSON. -/
structure ApprovalProjection where
  actionType : String
  capabilityId : String
  connectorFamily : String
  bindingId : String
  destination : String
  payload : String
deriving DecidableEq

/-- Everything that a request binds of its action and that a renewal has to repeat. -/
structure ApprovalBinding where
  actionId : String
  actionHash : String
  authorizationSetId : String
  runId : String
  planHash : String
  proposalRevision : Nat
  stepId : String
  stepKey : String
  templateId : String
  instanceId : String
  actionType : String
  capabilityId : String
  connectorFamily : String
  bindingId : String
  semanticActionHash : String
  redactedDestination : String
  redactedProjection : ApprovalProjection
  policy : ApprovalPolicySnapshot
deriving DecidableEq

/-- The projection of a request agrees with its own fields. -/
def ApprovalBinding.shown (binding : ApprovalBinding) : Bool :=
  binding.redactedProjection.actionType = binding.actionType &&
    binding.redactedProjection.capabilityId = binding.capabilityId &&
    binding.redactedProjection.connectorFamily = binding.connectorFamily &&
    binding.redactedProjection.bindingId = binding.bindingId &&
    binding.redactedProjection.destination = binding.redactedDestination

structure ActionApprovalRequest where
  generation : Nat
  binding : ApprovalBinding
  requestedBy : String
  requestedAt : Time
  expiresAt : Time
  positive : 1 ≤ generation ∧ 1 ≤ binding.proposalRevision
  expiry : expiresAt = requestedAt + seconds binding.policy.expiresAfterSeconds
  isShown : binding.shown = true
deriving DecidableEq

/-- Append-only decision facts. -/
structure ApprovalDecision where
  id : String
  requestId : String
  actionId : String
  actionHash : String
  authorizationSetId : String
  runId : String
  planHash : String
  proposalRevision : Nat
  stepId : String
  stepKey : String
  actorId : String
  authenticationMethod : String
  correlationId : String
  decision : ApprovalDecisionKind
  authorityRoles : Finset String
  authorityScopes : Finset String
  decidedAt : Time
  reason : Option String
deriving DecidableEq

/-- The stored columns of one request. -/
structure ApprovalRequestRecord where
  request : ActionApprovalRequest
  status : ApprovalStatus
  version : Nat
  updatedAt : Time
  expiredAt : Option Time
  replacementRequestId : Option String
  renewedAt : Option Time
  supersededAt : Option Time
  supersededReasonCode : Option String
deriving DecidableEq

/-- A request with the decision and the use that were recorded for it. -/
structure StoredActionApprovalRequest extends ApprovalRequestRecord where
  id : String
  decision : Option ApprovalDecision
  use : Option ApprovalUse
deriving DecidableEq

def ApprovalRequestRecord.created (request : ActionApprovalRequest) : ApprovalRequestRecord where
  request
  status := .pending
  version := 1
  updatedAt := request.requestedAt
  expiredAt := none
  replacementRequestId := none
  renewedAt := none
  supersededAt := none
  supersededReasonCode := none

/-- A decision names its request and was taken within its lifetime by somebody
other than the requester, where the policy forbids that, with the required authority. -/
def ApprovalDecision.bindsRequest (decision : ApprovalDecision) (requestId : String)
    (request : ActionApprovalRequest) : Bool :=
  decision.requestId = requestId && decision.actionId = request.binding.actionId &&
    decision.actionHash = request.binding.actionHash &&
    decision.authorizationSetId = request.binding.authorizationSetId &&
    decision.runId = request.binding.runId && decision.planHash = request.binding.planHash &&
    decision.proposalRevision = request.binding.proposalRevision &&
    decision.stepId = request.binding.stepId && decision.stepKey = request.binding.stepKey &&
    request.requestedAt ≤ decision.decidedAt && decision.decidedAt < request.expiresAt &&
    (request.binding.policy.allowSelfApproval || decision.actorId ≠ request.requestedBy) &&
    request.binding.policy.requiredRoles ⊆ decision.authorityRoles &&
    request.binding.policy.requiredScopes ⊆ decision.authorityScopes

/-- A use spends the approval of its own request before the request expires. -/
def ApprovalUse.bindsRequest (use : ApprovalUse) (requestId : String)
    (request : ActionApprovalRequest) (decision : Option ApprovalDecision) : Bool :=
  match decision with
  | none => false
  | some decision =>
      decision.decision = .approve && use.decisionId = decision.id && use.requestId = requestId &&
        use.actionId = request.binding.actionId && use.actionHash = request.binding.actionHash &&
        use.authorizationSetId = request.binding.authorizationSetId &&
        use.stepId = request.binding.stepId && use.stepKey = request.binding.stepKey &&
        decision.decidedAt ≤ use.usedAt && use.usedAt < request.expiresAt

namespace StoredActionApprovalRequest

variable (stored : StoredActionApprovalRequest)

def supersessionReasons : List String :=
  ["approval_set_rejected", "approval_set_superseded", "run_cancelled"]

/-- The checks made for every status. -/
def fieldsValid : Bool :=
  1 ≤ stored.version && stored.request.requestedAt ≤ stored.updatedAt &&
    stored.decision.all (·.bindsRequest stored.id stored.request) &&
    stored.replacementRequestId ≠ some stored.id &&
    stored.replacementRequestId.isSome = stored.renewedAt.isSome &&
    stored.supersededAt.isSome = stored.supersededReasonCode.isSome &&
    stored.supersededAt.all (stored.request.requestedAt ≤ ·) &&
    stored.supersededReasonCode.all (· ∈ supersessionReasons) &&
    stored.use.all (·.bindsRequest stored.id stored.request stored.decision)

def decidedAs (kind : ApprovalDecisionKind) : Bool := stored.decision.any (·.decision = kind)

def neverExpired : Bool :=
  stored.expiredAt = none && stored.replacementRequestId = none && stored.renewedAt = none

def neverSuperseded : Bool := stored.supersededAt = none && stored.supersededReasonCode = none

def decidedValid (kind : ApprovalDecisionKind) : Bool :=
  stored.decidedAs kind && stored.neverExpired && stored.use = none && stored.neverSuperseded &&
    stored.version = 2 && stored.decision.any (stored.updatedAt = ·.decidedAt)

/-- An expiry counts one version up, and a renewal after it another one. -/
def expiredValid : Bool :=
  let baseVersion := if stored.decision.isSome then 3 else 2
  match stored.expiredAt with
  | none => false
  | some expiredAt =>
      stored.request.expiresAt ≤ expiredAt && stored.use = none && stored.neverSuperseded &&
        stored.decision.all (·.decision = .approve) &&
        match stored.renewedAt with
        | none => stored.version = baseVersion && stored.updatedAt = expiredAt
        | some renewedAt =>
            expiredAt ≤ renewedAt && stored.version = baseVersion + 1 &&
              stored.updatedAt = renewedAt

def consumedValid : Bool :=
  stored.decidedAs .approve && stored.neverExpired && stored.neverSuperseded &&
    stored.version = 3 &&
    stored.use.any fun use => use.usedAt < stored.request.expiresAt && stored.updatedAt = use.usedAt

def supersededValid : Bool :=
  stored.supersededAt = some stored.updatedAt &&
    stored.version = (if stored.decision.isSome then 3 else 2) && stored.neverExpired &&
    stored.use = none && stored.decision.all (·.decision = .approve)

def lifecycleValid : Bool :=
  match stored.status with
  | .pending =>
      stored.version = 1 && stored.updatedAt = stored.request.requestedAt &&
        stored.decision = none &&
        stored.neverExpired && stored.neverSuperseded && stored.use = none
  | .approved => stored.decidedValid .approve
  | .rejected => stored.decidedValid .reject
  | .expired => stored.expiredValid
  | .consumed => stored.consumedValid
  | .superseded => stored.supersededValid

/-- The checks of a stored request, which its constructor makes. -/
def valid : Bool := stored.fieldsValid && stored.lifecycleValid

/-- The next generation of an action's request renews the expired one before it. -/
def renewedBy (replacementId : String) (replacement : ActionApprovalRequest) : Bool :=
  stored.status = .expired && stored.replacementRequestId = some replacementId &&
    stored.renewedAt = some replacement.requestedAt &&
    replacement.generation = stored.request.generation + 1 &&
      replacement.binding = stored.request.binding

theorem valid_decision {decision : ApprovalDecision} (checked : stored.valid)
    (decided : stored.decision = some decision) :
      decision.bindsRequest stored.id stored.request := by
  simp only [valid, fieldsValid, decided, Option.all_some, Bool.and_eq_true] at checked
  tauto

theorem valid_approved (checked : stored.valid) (approved : stored.status = .approved) :
    ∃ decision, stored.decision = some decision ∧ decision.decision = .approve ∧
      stored.replacementRequestId = none := by
  simp only [valid, lifecycleValid, approved, decidedValid, decidedAs, neverExpired,
    Bool.and_eq_true, Option.any_eq_true, decide_eq_true_eq] at checked
  obtain ⟨_, ⟨⟨⟨⟨⟨decision, decided, kind⟩, ⟨_, current⟩, _⟩, _⟩, _⟩, _⟩, _⟩ := checked
  exact ⟨decision, decided, kind, current⟩

end StoredActionApprovalRequest

end MarketingAgents
