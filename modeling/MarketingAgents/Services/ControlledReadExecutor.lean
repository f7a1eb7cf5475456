import MarketingAgents.Services.TerminalExecutionCleanup

namespace MarketingAgents

open Library

/-! # The controlled READ executor

Reserve, call outside transactions, then durably complete one READ attempt.
Every definition is one of these transactions.
-/

inductive ReadExecutionClassification where
  | succeeded
  | transientFailure
  | permanentFailure
  | timedOut
  | cancelled
deriving DecidableEq, Repr

def ReadExecutionClassification.attemptOutcome : ReadExecutionClassification → AttemptOutcome
  | succeeded => .succeeded
  | transientFailure | timedOut => .transientFailure
  | permanentFailure => .permanentFailure
  | cancelled => .cancelled

structure ControlledReadCommand where
  stepId : String
  inputPayload : String
deriving DecidableEq

/-- The checks of an input against its limits and contract, and its redaction. -/
structure ReadAdapter where
  inputWithinLimits : OperationExecutionPolicy → String → Except Rejection Unit
  validateContract : OperationExecutionPolicy → String → Except Rejection Unit
  redact : OperationExecutionPolicy → String → String

/-- What a reservation found: a new attempt, or an expired one that it closed. -/
inductive ReadReservation where
  | reserved (attempt : ExecutionAttempt)
  | recovered (completion : AttemptCompletion)
deriving DecidableEq

/-- What the adapter's answer, or its failure, asks to be recorded. -/
structure ReadOutcome where
  classification : ReadExecutionClassification
  outputArtifactId : Option String
  runtimeDenialCode : Option String
  safeErrorCode : Option String
deriving DecidableEq

def operationBindsStep (policy : OperationExecutionPolicy) (step : RunStep) : Bool :=
  policy.operationKey = step.runtimePolicy.operationKey &&
    policy.kind = step.runtimePolicy.attemptKind &&
    policy.requestSchemaId = step.requestSchemaId &&
    policy.dataClassification = step.dataClassification && policy.policyHash = step.planHash &&
    policy.maxAttempts = step.runtimePolicy.maxAttempts &&
    policy.retryBackoff = step.runtimePolicy.backoff &&
    policy.stepTimeoutSeconds = effectiveCallTimeoutSeconds step.runtimePolicy
      step.timeoutSeconds &&
    policy.rateLimit = step.runtimePolicy.rateLimit

namespace ControlledReadExecutor

/-- The run states in which an attempt may still be completed. -/
def completable (state : RunState) : Bool := state ∈ [.executing, .cancelled, .failed, .rejected]

def cancellationObserved (db : Database) (control : RunExecutionControl) : Bool :=
  control.cancelRequest ≠ none || db.run.state = .cancelled

/-- Fail a step whose attempt ended for good: with its whole run while that is
executing, alone when the parent is already finished or cancelled. -/
def failStep (db : Database) (stepId : String) (step : RunStep) (reasonCode : String)
    (observed : Bool) (occurredAt : Time) (code message : String) :
    Except Rejection (List AuditEvent × Database) := do
  if db.run.state = .executing ∧ !observed then
    let (cleanup, after) ← TerminalExecutionCleanupService.failOrdinary db stepId step.planHash
      reasonCode occurredAt none
    return (cleanup.auditEvents, after)
  else
    let (result, after) ← db.advanceStep db.run stepId step .fail (.terminal reasonCode) occurredAt
      code message
    return ([.stepTransition result.transition], after)

/-- Close an expired attempt and, unless it may be retried, its step. -/
def recoverExpired (db : Database) (stepId : String) (step : RunStep)
    (openAttempt : ExecutionAttempt)
    (observed : Bool) (recoveredAt : Time) : Except Rejection (AttemptCompletion × Database) := do
  let (completion, completed) ← db.recoverExpiredAttempt {
    attemptId := openAttempt.id
    expectedAttemptVersion := openAttempt.version
    expectedCallDeadlineAt := openAttempt.callDeadlineAt
    recoveredAt }
  let event := AuditEvent.attemptCompleted openAttempt.id stepId completion
  match completion.retryNotBefore with
  | some _ => return (completion, completed.appendAudits [event])
  | none =>
      let reasonCode := if observed then "run_cancelled"
        else completion.terminalReasonCode.getD "retry_deadline_exceeded"
      let (events, after) ← failStep completed stepId step reasonCode observed recoveredAt
        "stale_recovery_conflict" "expired READ attempt lost its step recovery fence"
      return (completion, after.appendAudits (event :: events))

/-- The exact operation, control and state that a reservation works under. -/
def reservationContext (db : Database) (stepId : String) (step : RunStep) :
    Except Rejection (Operation × RunExecutionControl) := do
  require (step.effect = .read) "read_step_required" "controlled READ executor rejects WRITE steps"
  require (step.runtimePolicy.attemptKind ≠ .noCall) "adapter_call_not_allowed"
    "no-call step cannot reserve a READ adapter attempt"
  let operation ← requireSome (db.operation? stepId step.runtimePolicy.operationKey)
    "execution_policy_invalid" "READ step lacks its exact immutable operation policy"
  let control ← requireSome db.control "execution_policy_invalid"
    "READ step lacks its exact immutable operation policy"
  require (completable db.run.state ∧ operationBindsStep operation.policy step)
    "execution_policy_invalid" "READ step lacks its exact immutable operation policy"
  require (control.policyHash = step.planHash ∧ control.window ≠ none) "execution_not_started"
    "READ execution control has not been activated"
  return (operation, control)

/-- Reserve a new attempt and start the step with its first one. -/
def reserveCall (adapter : ReadAdapter) (db : Database) (command : ControlledReadCommand)
    (step : RunStep) (operation : Operation) (control : RunExecutionControl) (attemptId : String)
    (reservedAt : Time) : Except Rejection (ReadReservation × Database) := do
  require (db.run.state = .executing ∧ control.cancelRequest = none)
    (if cancellationObserved db control then "run_cancelled" else "run_terminal")
    "terminal Run cannot reserve another READ attempt"
  adapter.inputWithinLimits operation.policy command.inputPayload
  adapter.validateContract operation.policy command.inputPayload
  let (attempt, reserved) ← db.reserveAttempt {
    attemptId
    stepId := command.stepId
    operationKey := step.runtimePolicy.operationKey
    expectedControlVersion := control.version
    expectedStepVersion := step.version
    reservedAt
    redactedInput := adapter.redact operation.policy command.inputPayload
    inputSchemaId := operation.policy.requestSchemaId
    inputClassification := operation.policy.dataClassification }
  require (attempt.completion = none) "attempt_replay_not_callable"
    "completed attempt cannot authorize another adapter call"
  let event := AuditEvent.attemptReserved attempt.id command.stepId attempt.attemptNumber reservedAt
  if attempt.attemptNumber = 1 then
    require (step.state = .ready) "first_attempt_step_invalid"
      "first READ attempt requires one READY step"
    let (result, started) ← reserved.advanceStep db.run command.stepId step .start .none reservedAt
      "step_start_conflict" "READ step changed before its controlled attempt committed"
    return (.reserved attempt, started.appendAudits [.stepTransition result.transition, event])
  else
    require (step.state = .executing) "retry_step_invalid"
      "READ retry requires its already executing step"
    return (.reserved attempt, reserved.appendAudits [event])

def reserve (adapter : ReadAdapter) (db : Database) (command : ControlledReadCommand)
    (attemptId : String) (reservedAt : Time) : Except Rejection (ReadReservation × Database) := do
  let step ← requireSome (db.step? command.stepId) "step_not_found" "READ step does not exist"
  let (operation, control) ← reservationContext db command.stepId step
  let attempts ← db.listAttempts command.stepId step.runtimePolicy.operationKey
  match attempts.getLast?.filter (·.isOpen) with
  | some openAttempt =>
      if reservedAt < openAttempt.callDeadlineAt then
        rejectUntil "attempt_in_progress" "prior READ attempt retains its bounded call authority"
          openAttempt.callDeadlineAt reservedAt
      else
        let (completion, after) ← recoverExpired db command.stepId step openAttempt
          (cancellationObserved db control) reservedAt
        return (.recovered completion, after)
  | none => reserveCall adapter db command step operation control attemptId reservedAt

/-- What is recorded under a parent that was cancelled or has finished meanwhile. -/
def effectiveOutcome (db : Database) (control : RunExecutionControl) (outcome : ReadOutcome) :
    ReadOutcome :=
  if outcome.classification = .succeeded then outcome
  else if cancellationObserved db control then
    { outcome with
      classification := .cancelled
      runtimeDenialCode := none
      safeErrorCode := some "run_cancelled" }
  else if db.run.state ∈ [.failed, .rejected] then
    { outcome with
      classification := .permanentFailure
      runtimeDenialCode := none
      safeErrorCode := some "parent_run_terminal" }
  else outcome

/-- The exact executing step, control and open attempt that a completion closes. -/
def completionContext (db : Database) (attemptId stepId : String) :
    Except Rejection (RunStep × RunExecutionControl) := do
  let (attemptStepId, attempt) ← requireSome (db.attempt? attemptId) "completion_state_invalid"
    "READ completion lacks its exact persisted attempt and step"
  let step ← requireSome (db.step? stepId) "completion_state_invalid"
    "READ completion lacks its exact persisted attempt and step"
  let control ← requireSome db.control "completion_state_invalid"
    "READ completion lacks its exact persisted attempt and step"
  require (attempt.completion = none ∧ step.state = .executing ∧ attemptStepId = stepId ∧
      attempt.policyHash = control.policyHash ∧ control.policyHash = step.planHash ∧
      completable db.run.state) "completion_state_invalid"
    "READ completion lacks its exact persisted attempt and step"
  return (step, control)

/-- Close the step of a completed attempt that will not be retried. -/
def concludeStep (db completed : Database) (context : AuditContext) (stepId : String)
    (step : RunStep) (outcome : ReadOutcome) (completion : AttemptCompletion) (observed : Bool)
    (completedAt : Time) : Except Rejection (List AuditEvent × Database) := do
  match outcome.runtimeDenialCode with
  | some denialCode =>
      let (cleanup, after) ← TerminalExecutionCleanupService.failRuntimeControl completed stepId
        step.planHash denialCode completedAt
      let denial : RuntimeControlDenial := {
        context
        stepId
        actionId := none
        operationKey := step.runtimePolicy.operationKey
        denialCode }
      return (.runtimeControlDenied denial none completedAt :: cleanup.auditEvents, after)
  | none =>
      if outcome.classification = .succeeded then
        let (result, after) ← completed.advanceStep db.run stepId step .succeed .none completedAt
          "completion_conflict" "READ completion lost its cancellation or step fence"
        return ([.stepTransition result.transition], after)
      else
        failStep completed stepId step
          (if observed then "run_cancelled"
            else completion.terminalReasonCode.getD "unclassified_failure")
          observed completedAt "completion_conflict"
          "READ completion lost its cancellation or step fence"

def completeOnce (db : Database) (context : AuditContext) (attemptId stepId : String)
    (outcome : ReadOutcome) (completedAt : Time) :
      Except Rejection (AttemptCompletion × Database) := do
  let (step, control) ← completionContext db attemptId stepId
  let observed := cancellationObserved db control
  let effective := effectiveOutcome db control outcome
  require (effective.classification = .succeeded → effective.outputArtifactId ≠ none)
    "completion_state_invalid" "successful READ completion lacks its exact output identity"
  let (completion, completed) ← db.completeAttempt {
    attemptId
    outcome := effective.classification.attemptOutcome
    expectedControlVersion := control.version
    completedAt
    safeErrorCode := effective.safeErrorCode
    outputArtifactId :=
      if effective.classification = .succeeded then effective.outputArtifactId else none }
  let event := AuditEvent.attemptCompleted attemptId stepId completion
  match completion.retryNotBefore with
  | some _ => return (completion, completed.appendAudits [event])
  | none =>
      let (events, after) ← concludeStep db completed context stepId step effective
        completion observed completedAt
      return (completion, after.appendAudits (event :: events))

/-- Append a redacted witness only after the denied transaction rolls back. -/
def recordRuntimeControlDenial (db : Database) (context : AuditContext) (stepId : String)
    (error : Rejection) (occurredAt : Time) : Except Rejection Database := do
  if error.code ∉ runtimeControlDenialCodes then return db
  else
    match db.step? stepId with
    | none => return db
    | some step =>
        let denial : RuntimeControlDenial := {
          context
          stepId
          actionId := none
          operationKey := step.runtimePolicy.operationKey
          denialCode := error.code }
        let event := AuditEvent.runtimeControlDenied denial
          (error.retryAfterSeconds.filter fun seconds => 1 ≤ seconds ∧ seconds ≤ 3600) occurredAt
        let events := if db.denialRecorded denial then [] else [event]
        if error.code ∈ terminalRuntimeControlDenialCodes ∧ db.run.state = .executing then
          let (cleanup, after) ← TerminalExecutionCleanupService.failRuntimeControl db stepId
            step.planHash error.code occurredAt
          return after.appendAudits (events ++ cleanup.auditEvents)
        else return db.appendAudits events

/-- Finalize only an expired, existing attempt of a cancelled run. -/
def recoverCancelledAttempt (db : Database) (stepId : String) (now : Time) :
    Except Rejection (Option AttemptCompletion × Database) := do
  let step ← requireSome (db.step? stepId) "step_not_found" "READ recovery step does not exist"
  let control ← requireSome db.control "cancelled_recovery_context_invalid"
    "READ recovery requires an exact cancelled execution plan"
  let operation ← requireSome (db.operation? stepId step.runtimePolicy.operationKey)
    "cancelled_recovery_context_invalid" "READ recovery requires an exact cancelled execution plan"
  require (db.run.state = .cancelled ∧ control.cancelRequest ≠ none ∧ control.window ≠ none ∧
      control.policyHash = step.planHash ∧ step.effect = .read ∧
      step.runtimePolicy.attemptKind ≠ .noCall ∧ operationBindsStep operation.policy step)
    "cancelled_recovery_context_invalid" "READ recovery requires an exact cancelled execution plan"
  let attempts ← db.listAttempts stepId operation.policy.operationKey
  match attempts.getLast?.filter (·.isOpen) with
  | none => return (none, db)
  | some openAttempt =>
      require (step.state = .executing) "cancelled_recovery_context_invalid"
        "open READ attempt requires its executing step"
      if now < openAttempt.callDeadlineAt then return (none, db)
      else
        let (completion, after) ← recoverExpired db stepId step openAttempt true now
        return (some completion, after)

end ControlledReadExecutor

end MarketingAgents
