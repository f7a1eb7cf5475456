import MarketingAgents.Domain.RunLifecycle
import MarketingAgents.Domain.Validation
import MarketingAgents.Library.Machine

namespace MarketingAgents

/-! # Run records

A run with the identity it was admitted under, the record that each transition
leaves behind, the evidence for the audit log and the checks that all of them
make of themselves.
-/

/-- The lifecycle state of a run with the identity that never changes. -/
structure RunRecord extends Run where
  id : String
  workItemId : String
  catalogHash : String
  configurationRevision : Nat
deriving DecidableEq

def RunRecord.validate (run : RunRecord) : Except Rejection Unit := do
  requireId run.id "run ID"
  requireId run.workItemId "work item ID"
  requireDigest (removePrefix "catalog-sha256-v1:" run.catalogHash) "catalog hash"
  require (run.createdAt ≤ run.updatedAt) "ValueError" "run update time cannot precede creation"
  require (1 ≤ run.configurationRevision ∧ 1 ≤ run.version) "ValueError"
    "run revisions must be positive"
  require (run.state ∈ [.received, .validated] → run.approvalRequired = none)
    "ValueError" "pre-plan run cannot have an approval disposition"
  require (run.state ∈ [.planned, .awaitingApproval, .executing, .completed, .rejected] →
      run.approvalRequired ≠ none)
    "ValueError" "planned run must retain its approval disposition"
  require (run.state ∈ [.awaitingApproval, .rejected] → run.approvalRequired = some true)
    "ValueError" "approval states require a write-bearing plan"
  require (run.state.terminal = run.terminalReasonCode.isSome)
    "ValueError" "only terminal runs require a terminal reason code"
  requireOptional (requireId · "terminal reason code") run.terminalReasonCode

/-- Nonempty, distinct digests. -/
def requireActionHashes (values : List String) (fieldName : String) : Except Rejection Unit := do
  require (values ≠ []) "ValueError" (fieldName ++ " must not be empty")
  require values.Nodup "ValueError" (fieldName ++ " must be unique")
  requireEach (requireDigest · fieldName) values

def RunTransitionContext.validate : RunTransitionContext → Except Rejection Unit
  | .none => .ok ()
  | .planDisposition _ => .ok ()
  | .approvalBarrier required current approved expiresAtByHash => do
      requireActionHashes required "required action hashes"
      requireActionHashes current "current action hashes"
      requireActionHashes approved "approved action hashes"
      requireEach (fun expiry => requireDigest expiry.1 "approval expiry action hash")
        expiresAtByHash
  | .approvalRejection required rejected => do
      requireActionHashes required "required action hashes"
      requireActionHashes rejected "rejected action hashes"
  | .completion totalStepCount succeededStepCount failedStepCount unfinishedStepCount => do
      require (1 ≤ totalStepCount) "ValueError" "completion requires at least one planned step"
      require (totalStepCount = succeededStepCount + failedStepCount + unfinishedStepCount)
        "ValueError" "completion counts must sum to the total step count"
  | .failure _ failureCode => requireId failureCode "run failure code"
  | .cancellation reasonCode _ _ => requireId reasonCode "cancellation reason code"

/-- One row of the append-only transition history. -/
structure RunTransitionRecord extends RunStateTransition where
  runId : String
deriving DecidableEq

/-- The changes of state that each command may record. -/
def allowedRunEdges : RunLifecycleCommand → List (RunState × RunState)
  | .receive => []
  | .markValidated => [(.received, .validated)]
  | .recordPlan => [(.validated, .planned)]
  | .activatePlan => [(.planned, .awaitingApproval), (.planned, .executing)]
  | .releaseApprovedPlan => [(.awaitingApproval, .executing)]
  | .rejectApproval => [(.awaitingApproval, .rejected)]
  | .complete => [(.executing, .completed)]
  | .fail => [(.received, .failed), (.validated, .failed), (.planned, .failed),
      (.awaitingApproval, .failed), (.executing, .failed)]
  | .cancel => [(.received, .cancelled), (.validated, .cancelled), (.planned, .cancelled),
      (.awaitingApproval, .cancelled), (.executing, .cancelled)]

/-- The first transition receives the run; every later one follows an allowed edge. -/
def RunTransitionRecord.validateEdge (transition : RunTransitionRecord) : Except Rejection Unit :=
  if transition.sequence = 1 then
    require (transition.command = .receive ∧ transition.previousState = none ∧
        transition.newState = .received ∧ transition.expectedVersion = 0)
      "ValueError" "initial transition must receive version one"
  else match transition.command, transition.previousState with
    | .receive, _ | _, none =>
        reject "ValueError" "subsequent transition must change an existing state"
    | command, some previousState => do
        require (previousState ≠ transition.newState)
          "ValueError" "subsequent transition must change an existing state"
        require ((previousState, transition.newState) ∈ allowedRunEdges command)
          "ValueError" "run transition command and states are inconsistent"

def RunTransitionRecord.validate (transition : RunTransitionRecord) : Except Rejection Unit := do
  requireId transition.runId "transition run ID"
  requireId transition.reasonCode "transition reason code"
  require (transition.sequence = transition.resultingVersion ∧
      transition.resultingVersion = transition.expectedVersion + 1)
    "ValueError" "transition sequence and versions must be contiguous"
  require (1 ≤ transition.sequence) "ValueError" "transition sequence must be positive"
  transition.validateEdge
  require (transition.command = .cancel ∨
      transition.completedEffectCount = 0 ∧ transition.outcomeUnknownEffectCount = 0)
    "ValueError" "only cancellation records external-effect counts"

/-- What the audit log is told of an accepted or refused command. -/
structure RunTransitionEvidence where
  accepted : Bool
  runId : String
  command : RunLifecycleCommand
  previousState : RunState
  requestedState : Option RunState
  reasonCode : String
  expectedVersion : Nat
  occurredAt : Time
  completedEffectCount : Nat
  outcomeUnknownEffectCount : Nat
deriving DecidableEq

/-- An accepted command with everything it leaves behind. -/
structure RunTransitionOutcome where
  run : RunRecord
  transition : RunTransitionRecord
  auditEvidence : RunTransitionEvidence
deriving DecidableEq

/-- The evidence tells of an accepted transition exactly what its record says. -/
def RunTransitionOutcome.evidenceConsistent (result : RunTransitionOutcome) : Bool :=
  result.auditEvidence.accepted && result.auditEvidence.runId = result.run.id &&
    result.auditEvidence.command = result.transition.command &&
    some result.auditEvidence.previousState = result.transition.previousState &&
    result.auditEvidence.requestedState = some result.transition.newState &&
    result.auditEvidence.reasonCode = result.transition.reasonCode &&
    result.auditEvidence.expectedVersion = result.transition.expectedVersion &&
    result.auditEvidence.occurredAt = result.transition.occurredAt &&
    result.auditEvidence.completedEffectCount = result.transition.completedEffectCount &&
    result.auditEvidence.outcomeUnknownEffectCount = result.transition.outcomeUnknownEffectCount

def RunTransitionOutcome.validate (result : RunTransitionOutcome) : Except Rejection Unit := do
  result.transition.validate
  require (result.run.id = result.transition.runId ∧ result.run.state = result.transition.newState ∧
      result.run.version = result.transition.resultingVersion ∧
      result.run.updatedAt = result.transition.occurredAt)
    "ValueError" "run transition result does not match its updated Run"
  require result.evidenceConsistent
    "ValueError" "run transition result audit evidence is inconsistent"
  require (result.run.state.terminal =
      decide (result.run.terminalReasonCode = some result.transition.reasonCode))
    "ValueError" "run transition result terminal reason is inconsistent"
  require (result.transition.command = .activatePlan → result.run.state =
      if result.run.approvalRequired = some true then .awaitingApproval else .executing)
    "ValueError" "plan activation does not match its approval disposition"
  require (result.transition.command ∈ [.releaseApprovedPlan, .rejectApproval] →
      result.run.approvalRequired = some true)
    "ValueError" "approval transition requires a write-bearing Run"

/-- A command is refused with its evidence, or one of the records refuses its own fields. -/
inductive RunTransitionFailure where
  | refused (code message : String) (auditEvidence : RunTransitionEvidence)
  | invalid (reason : Rejection)
deriving DecidableEq

def requestedRunState (run : Run) : RunLifecycleCommand → Option RunState
  | .receive => none
  | .markValidated => some .validated
  | .recordPlan => some .planned
  | .activatePlan =>
    some (if run.approvalRequired = some true then .awaitingApproval else .executing)
  | .releaseApprovedPlan => some .executing
  | .rejectApproval => some .rejected
  | .complete => some .completed
  | .fail => some .failed
  | .cancel => some .cancelled

/-- What a caller submits: a command with its context and its time. -/
structure RunTransitionInput where
  command : RunLifecycleCommand
  context : RunTransitionContext
  occurredAt : Time
deriving DecidableEq

namespace RunRecord

variable (run : RunRecord) (input : RunTransitionInput)

def evidence (accepted : Bool) (reasonCode : String) : RunTransitionEvidence where
  accepted
  runId := run.id
  command := input.command
  previousState := run.state
  requestedState := requestedRunState run.toRun input.command
  reasonCode
  expectedVersion := run.version
  occurredAt := input.occurredAt
  completedEffectCount := input.context.effectCounts.1
  outcomeUnknownEffectCount := input.context.effectCounts.2

def refuse {α : Type} (code message : String) : Except RunTransitionFailure α :=
  .error (.refused code message (run.evidence input false code))

/-- The run, its transition and the evidence that a legal command yields. -/
def advanced (newState : RunState) (reasonCode : String) (approvalRequired : Option Bool) :
    RunTransitionOutcome where
  run := { run with
    state := newState
    updatedAt := input.occurredAt
    version := run.version + 1
    approvalRequired
    terminalReasonCode := if newState.terminal then some reasonCode else none }
  transition := {
    runId := run.id
    sequence := run.version + 1
    command := input.command
    previousState := some run.state
    newState
    reasonCode
    occurredAt := input.occurredAt
    expectedVersion := run.version
    resultingVersion := run.version + 1
    completedEffectCount := input.context.effectCounts.1
    outcomeUnknownEffectCount := input.context.effectCounts.2 }
  auditEvidence := run.evidence input true reasonCode

end RunRecord

/-- Construct the three records in turn, each of which checks its own fields. -/
def RunTransitionOutcome.construct (result : RunTransitionOutcome) : Except Rejection Unit := do
  result.run.validate
  result.transition.validate
  result.validate

/-- Apply one legal command to a complete run. -/
def RunRecord.transition (run : RunRecord) (input : RunTransitionInput) :
    Except RunTransitionFailure RunTransitionOutcome :=
  if input.occurredAt < run.updatedAt then
    run.refuse input "non_monotonic_time" "transition time is stale"
  else if run.state.terminal then
    run.refuse input "terminal_state_immutable" "terminal run state is immutable"
  else match nextRunState run.toRun input.command input.context input.occurredAt with
    | .error reason => run.refuse input reason.code reason.message
    | .ok (newState, reasonCode, approvalRequired) =>
        let result := run.advanced input newState reasonCode approvalRequired
        match result.construct with
        | .error reason => .error (.invalid reason)
        | .ok () => .ok result

/-- The transition that receives a run at its creation. -/
def initialReceivedTransition (run : RunRecord) : Except Rejection RunTransitionRecord := do
  require (run.state = .received ∧ run.version = 1 ∧ run.updatedAt = run.createdAt)
    "ValueError" "initial run must be received at version one and creation time"
  let transition : RunTransitionRecord := {
    runId := run.id
    sequence := 1
    command := .receive
    previousState := none
    newState := .received
    reasonCode := "work_admitted"
    occurredAt := run.createdAt
    expectedVersion := 0
    resultingVersion := 1
    completedEffectCount := 0
    outcomeUnknownEffectCount := 0 }
  transition.validate
  return transition

end MarketingAgents
