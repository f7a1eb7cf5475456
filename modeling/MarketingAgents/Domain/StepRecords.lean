import MarketingAgents.Domain.ApprovalProjection
import MarketingAgents.Domain.DataClassification
import MarketingAgents.Domain.PlanningBudget
import MarketingAgents.Domain.StepLifecycle
import MarketingAgents.Domain.Validation
import MarketingAgents.Library.Machine

namespace MarketingAgents

/-! # Step records

A persisted step with its whole contract snapshot, the record that each of its
transitions leaves behind and the checks that both make of themselves.
-/

/-- The lifecycle state of a step with everything that was sealed into its plan. -/
structure StepRecord extends RunStep where
  id : String
  runId : String
  kind : String
  selectedInstanceId : String
  capabilityId : String
  graphHash : String
  ordinal : Nat
  sourceOrder : Nat
  templateId : String
  configurationRevision : Nat
  routingSlotKey : Option String
  bindingId : Option String
  bindingConfigurationRevision : Option Nat
  resultSchemaId : Option String
  resultSchemaHash : Option String
  requestRedactionFields : List String
  resultRedactionFields : List String
  idempotencySupport : String
  approvalPolicyId : String
  approvalRequiredRoles : List String
  approvalRequiredScopes : List String
  approvalExpiresAfterSeconds : Option Nat
  approvalAllowSelfApproval : Option Bool
  terminalResult : Bool
  createdAt : Time
deriving DecidableEq

def proposalPreviewKind : String := "planner.proposal-preview.v1"

def proposalPreviewCapabilities : List String :=
  ["cap.newsletter.subscribe", "cap.newsletter.unsubscribe", "cap.events.enroll-attendee",
    "cap.messaging.send-message"]

namespace StepRecord

variable (step : StepRecord)

def validateIdentity : Except Rejection Unit := do
  requireId step.id "id"
  requireId step.runId "run_id"
  requireId step.key "key"
  requireId step.selectedInstanceId "selected_instance_id"
  requireId step.capabilityId "capability_id"
  requireId step.kind "step kind"
  require (step.kind.length ≤ 120 ∧ step.connectorFamily.length ≤ 120)
    "ValueError" "step kind and connector family must not exceed 120 characters"
  requireUnique step.dependencyKeys "step dependencies"
  require (step.key ∉ step.dependencyKeys) "ValueError" "step cannot depend on itself"
  requireDigest step.planHash "step plan hash"
  requireDigest step.graphHash "step graph hash"
  requireId step.templateId "step template ID"
  requireId step.connectorFamily "step connector family"

def validateContract : Except Rejection Unit := do
  requireOptional (requireId · "step routing slot key") step.routingSlotKey
  requireOptional (requireId · "step binding ID") step.bindingId
  requireOptional (requireId · "step request schema ID") step.requestSchemaId
  requireOptional (requireId · "step result schema ID") step.resultSchemaId
  requireOptional (requireSchemaHash · "step result schema hash") step.resultSchemaHash
  require (step.resultSchemaId.isNone = step.resultSchemaHash.isNone)
    "ValueError" "step result schema ID and hash must be present together"
  require (1 ≤ step.ordinal) "ValueError" "step ordinal must be positive"
  require (1 ≤ step.sourceOrder) "ValueError" "step source order must be a positive integer"
  require (1 ≤ step.configurationRevision) "ValueError"
    "step configuration revision must be positive"
  require (∀ revision ∈ step.bindingConfigurationRevision, 1 ≤ revision)
    "ValueError" "step binding configuration revision must be positive"
  let _ ← requireJsonPointers step.requestRedactionFields "step request redaction fields"
  let _ ← requireJsonPointers step.resultRedactionFields "step result redaction fields"
  requireUnique step.approvalRequiredRoles "step approval roles"
  requireUnique step.approvalRequiredScopes "step approval scopes"
  require (step.idempotencySupport ∈ ["not_applicable", "required", "supported", "unavailable"])
    "ValueError" "step idempotency support is invalid"

/-- The sealed runtime policy belongs to the connector family and the template. -/
def validatePolicy (runtimeRateLimitKey : String → Nat → Nat → String) : Except Rejection Unit := do
  require (step.runtimePolicy.attemptKind = attemptKindForConnector step.connectorFamily)
    "ValueError" "step runtime attempt kind differs from its connector family"
  require (step.runtimePolicy.rateLimit.key = runtimeRateLimitKey step.templateId
      step.runtimePolicy.rateLimit.maxCalls step.runtimePolicy.rateLimit.windowSeconds)
    "ValueError" "step runtime rate limit must bind its selected template"
  requireId step.approvalPolicyId "step approval policy ID"
  require (∀ timeoutSeconds ∈ step.timeoutSeconds, 1 ≤ timeoutSeconds ∧ timeoutSeconds ≤ 120)
    "ValueError" "step timeout must be from 1 through 120 seconds"

/-- The connector families that run inside the process. -/
def localFamily : Bool := step.connectorFamily ∈ ["model", "artifact", plannerOutputFamily]

def validateConnector : Except Rejection Unit := do
  require ((step.connectorFamily = plannerOutputFamily) ↔ (step.kind = proposalPreviewKind))
    "ValueError" "planner proposal preview kind and family must be paired"
  require (step.connectorFamily = plannerOutputFamily →
      step.capabilityId ∈ proposalPreviewCapabilities ∧ step.effect = .read)
    "ValueError" "planner proposal previews cannot carry execution authority"
  if step.localFamily then
    require (step.bindingId = none ∧ step.bindingConfigurationRevision = none ∧
      step.timeoutSeconds = none ∧
        step.requestRedactionFields = [] ∧ step.resultRedactionFields = [] ∧
        step.dataClassification = DataClassification.internal.value)
      "ValueError" "non-connector steps cannot retain connector contract metadata"
    require (step.connectorFamily ∈ ["model", plannerOutputFamily] →
        step.requestSchemaId.isSome ∧ step.resultSchemaId.isSome)
      "ValueError" "model and planner steps require their selected template schema pair"
    require (step.connectorFamily = "artifact" →
      step.requestSchemaId.isNone = step.resultSchemaId.isNone)
      "ValueError" "local artifact steps require a complete schema pair or neither"
  else
    require (step.bindingId.isSome ∧ step.bindingConfigurationRevision =
      some step.configurationRevision ∧
        step.timeoutSeconds.isSome ∧ step.requestSchemaId.isSome ∧ step.resultSchemaId.isSome)
      "ValueError" "external connector steps require a complete contract snapshot"
  require (∀ expiry ∈ step.approvalExpiresAfterSeconds, 1 ≤ expiry)
    "ValueError" "step approval expiry must be positive"

/-- Reading steps carry no approval authority; writing steps carry a complete one. -/
def validateAuthority : Except Rejection Unit :=
  match step.effect with
  | .read =>
      require (step.idempotencySupport = "not_applicable" ∧
        step.state ∉ [.awaitingApproval, .rejected] ∧
          step.approvalRequiredRoles = [] ∧ step.approvalRequiredScopes = [] ∧
          step.approvalExpiresAfterSeconds = none ∧ step.approvalAllowSelfApproval = none)
        "ValueError" "read step cannot retain write approval authority"
  | .write =>
      require (step.localFamily = false ∧ step.idempotencySupport = "required" ∧
          step.approvalRequiredRoles ≠ [] ∧ step.approvalRequiredScopes ≠ [] ∧
          step.approvalExpiresAfterSeconds.isSome ∧ step.approvalAllowSelfApproval.isSome ∧
          step.requestSchemaId.isSome ∧ step.resultSchemaId.isSome)
        "ValueError" "write step requires a complete external approval snapshot"

def validateLifecycle : Except Rejection Unit := do
  require (step.createdAt ≤ step.updatedAt) "ValueError" "step update time cannot precede creation"
  require (1 ≤ step.version) "ValueError" "step version must be positive"
  require (step.state.terminal = step.terminalReasonCode.isSome)
    "ValueError" "only terminal steps require a terminal reason code"
  requireOptional (requireId · "step terminal reason code") step.terminalReasonCode

def validate (runtimeRateLimitKey : String → Nat → Nat → String) : Except Rejection Unit := do
  step.validateIdentity
  step.validateContract
  step.validatePolicy runtimeRateLimitKey
  step.validateConnector
  step.validateAuthority
  step.validateLifecycle

end StepRecord

def StepTransitionContext.validate : StepTransitionContext → Except Rejection Unit
  | .none => .ok ()
  | .terminal reasonCode => requireId reasonCode "step terminal reason code"

/-- One row of a step's append-only transition history. -/
structure StepTransitionRecord extends StepStateTransition where
  runId : String
deriving DecidableEq

def allowedStepEdges : StepLifecycleCommand → List (StepState × StepState)
  | .initializeStep => []
  | .markReady => [(.pending, .ready)]
  | .waitForApproval => [(.pending, .awaitingApproval)]
  | .releaseApproval => [(.awaitingApproval, .ready)]
  | .start => [(.ready, .executing)]
  | .startReservedWrite => [(.ready, .executing)]
  | .succeed => [(.executing, .succeeded)]
  | .fail => [(.ready, .failed), (.executing, .failed)]
  | .reject => [(.awaitingApproval, .rejected)]
  | .cancel => [(.pending, .cancelled), (.ready, .cancelled), (.awaitingApproval, .cancelled)]
  | .skip => [(.pending, .skipped), (.ready, .skipped), (.awaitingApproval, .skipped)]

/-- The first transition initializes the step; every later one follows an allowed edge. -/
def StepTransitionRecord.validateEdge (transition : StepTransitionRecord) : Except Rejection Unit :=
  if transition.sequence = 1 then
    require (transition.command = .initializeStep ∧ transition.previousState = none ∧
        transition.newState = .pending ∧ transition.expectedVersion = 0)
      "ValueError" "initial step transition must initialize pending version one"
  else match transition.command, transition.previousState with
    | .initializeStep, _ | _, none =>
        reject "ValueError" "subsequent step transition must change an existing state"
    | command, some previousState => do
        require (previousState ≠ transition.newState)
          "ValueError" "subsequent step transition must change an existing state"
        require ((previousState, transition.newState) ∈ allowedStepEdges command)
          "ValueError" "step transition command and states are inconsistent"

def StepTransitionRecord.validate (transition : StepTransitionRecord) : Except Rejection Unit := do
  requireId transition.stepId "step transition step ID"
  requireId transition.runId "step transition run ID"
  requireId transition.reasonCode "step transition reason code"
  require (transition.sequence = transition.resultingVersion ∧
      transition.resultingVersion = transition.expectedVersion + 1 ∧ 1 ≤ transition.sequence)
    "ValueError" "step transition sequence and versions must be contiguous"
  transition.validateEdge

/-- An accepted command: the step as it became and the record of its transition. -/
structure StepTransitionOutcome where
  step : StepRecord
  transition : StepTransitionRecord
deriving DecidableEq

def StepTransitionOutcome.validate (result : StepTransitionOutcome) : Except Rejection Unit := do
  result.transition.validate
  require (result.step.id = result.transition.stepId ∧ result.step.runId = result.transition.runId ∧
      result.step.state = result.transition.newState ∧
      result.step.version = result.transition.resultingVersion ∧
      result.step.updatedAt = result.transition.occurredAt)
    "ValueError" "step transition result does not match its updated step"
  require (result.step.state.terminal =
      decide (result.step.terminalReasonCode = some result.transition.reasonCode))
    "ValueError" "step transition result terminal reason is inconsistent"
  require (result.transition.command ∈ [.markReady, .start] → result.step.effect = .read)
    "ValueError" "ordinary ready and start transitions are read-only"
  require (result.transition.command ∈ [.waitForApproval, .releaseApproval,
    .startReservedWrite, .reject] →
      result.step.effect = .write)
    "ValueError" "approval transitions are write-only"

/-- A command is refused, or one of the records refuses its own fields. -/
inductive StepTransitionFailure where
  | refused (reason : Rejection)
  | invalid (reason : Rejection)
deriving DecidableEq

structure StepTransitionInput where
  command : StepLifecycleCommand
  context : StepTransitionContext
  occurredAt : Time
deriving DecidableEq

/-- The step and the transition that a legal command yields. -/
def StepRecord.advanced (step : StepRecord) (input : StepTransitionInput) (newState : StepState)
    (reasonCode : String) : StepTransitionOutcome where
  step := { step with
    state := newState
    updatedAt := input.occurredAt
    version := step.version + 1
    terminalReasonCode := if newState.terminal then some reasonCode else none }
  transition := {
    stepId := step.id
    runId := step.runId
    sequence := step.version + 1
    command := input.command
    previousState := some step.state
    newState
    reasonCode
    occurredAt := input.occurredAt
    expectedVersion := step.version
    resultingVersion := step.version + 1 }

/-- Construct the records in turn, each of which checks its own fields. -/
def StepTransitionOutcome.construct (result : StepTransitionOutcome)
    (runtimeRateLimitKey : String → Nat → Nat → String) : Except Rejection Unit := do
  result.step.validate runtimeRateLimitKey
  result.transition.validate
  result.validate

/-- Apply one legal command to a complete step. -/
def StepRecord.transition (runtimeRateLimitKey : String → Nat → Nat → String) (step : StepRecord)
    (input : StepTransitionInput) : Except StepTransitionFailure StepTransitionOutcome :=
  if input.occurredAt < step.updatedAt then
    .error (.refused { code := "non_monotonic_time", message := "step transition time is stale" })
  else if step.state.terminal then
    .error (.refused
      { code := "terminal_state_immutable", message := "terminal step state is immutable" })
  else match nextStepState step.toRunStep input.command input.context with
    | .error reason => .error (.refused reason)
    | .ok (newState, reasonCode) =>
        let result := step.advanced input newState reasonCode
        match result.construct runtimeRateLimitKey with
        | .error reason => .error (.invalid reason)
        | .ok () => .ok result

/-- The transition that records a step with its plan. -/
def initialPendingTransition (step : StepRecord) : Except Rejection StepTransitionRecord := do
  require (step.state = .pending ∧ step.version = 1) "ValueError"
    "initial step must be pending at version one"
  require (step.createdAt = step.updatedAt)
    "ValueError" "initial step update time must equal its creation time"
  let transition : StepTransitionRecord := {
    stepId := step.id
    runId := step.runId
    sequence := 1
    command := .initializeStep
    previousState := none
    newState := .pending
    reasonCode := "plan_step_recorded"
    occurredAt := step.createdAt
    expectedVersion := 0
    resultingVersion := 1 }
  transition.validate
  return transition

end MarketingAgents
