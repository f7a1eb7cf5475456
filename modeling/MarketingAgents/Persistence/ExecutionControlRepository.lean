import MarketingAgents.Persistence.Database

namespace MarketingAgents

open Library

/-! # The execution-control repository

Budget, deadline and cancellation of one run, and the attempts reserved under
it.  Every write is a compare-and-swap on the control version, so the reads an
operation makes before it are of the state it updates.
-/

structure AttemptReservationCommand where
  attemptId : String
  stepId : String
  operationKey : String
  expectedControlVersion : Nat
  expectedStepVersion : Nat
  reservedAt : Time
  redactedInput : String
  inputSchemaId : Option String
  inputClassification : String
deriving DecidableEq

structure AttemptCompletionCommand where
  attemptId : String
  outcome : AttemptOutcome
  expectedControlVersion : Nat
  completedAt : Time
  safeErrorCode : Option String
  outputArtifactId : Option String
deriving DecidableEq

structure ExpiredAttemptRecoveryCommand where
  attemptId : String
  expectedAttemptVersion : Nat
  expectedCallDeadlineAt : Time
  recoveredAt : Time
deriving DecidableEq

structure DeliveryCallReservationCommand where
  stepId : String
  actionId : String
  deliveryAttemptNumber : Nat
  expectedControlVersion : Nat
  expectedStepVersion : Nat
  expectedActionVersion : Nat
  reservedAt : Time
deriving DecidableEq

/-- The granted call window of one delivery attempt. -/
structure DeliveryCallPermit where
  callDeadlineAt : Time
  rateWindowStartedAt : Time
  logicalBudgetConsumed : Bool
deriving DecidableEq

def safeAttemptErrorCodes : List String :=
  ["adapter_cancelled", "adapter_contract_drift", "adapter_contract_invalid",
    "adapter_contract_unavailable", "adapter_response_mismatch", "binding_mismatch",
    "capability_mismatch", "connector_read_unavailable", "connector_request_rejected",
    "connector_result_mismatch", "connector_result_rejected", "connector_timeout",
    "input_schema_invalid", "invalid_request", "model_output_tokens_exceeded",
    "model_output_tokens_invalid", "operation_disabled", "output_payload_too_large",
    "output_schema_invalid", "parent_run_terminal", "run_cancelled", "schema_mismatch",
    "temporary_failure", "unclassified_failure", "upstream_unavailable"]

/-- What a completion command checks when it is built. -/
def AttemptCompletionCommand.validate (command : AttemptCompletionCommand) :
    Except Rejection Unit := do
  require (∀ code ∈ command.safeErrorCode, code ∈ safeAttemptErrorCodes) "ValueError"
    "attempt safe error code is not allowlisted"
  if command.outcome = .succeeded then
    require (command.safeErrorCode = none) "ValueError"
      "successful attempt cannot retain a safe error code"
    require (command.outputArtifactId ≠ none) "ValueError"
      "successful attempt requires a durable output artifact"
  else
    require (command.outputArtifactId = none) "ValueError"
      "failed attempt cannot retain an output artifact"

/-- What a recovery command checks when it is built. -/
def ExpiredAttemptRecoveryCommand.validate (command : ExpiredAttemptRecoveryCommand) :
    Except Rejection Unit := do
  require (command.expectedAttemptVersion = 1) "ValueError"
    "expired attempt recovery requires the open version"
  require (command.expectedCallDeadlineAt ≤ command.recoveredAt) "ValueError"
    "attempt recovery cannot precede its expected call deadline"

def retryAfterSeconds (endsAt now : Time) : Nat :=
  max 1 (min 3600 ((endsAt - now + (seconds 1 - 1)) / seconds 1))

def rejectUntil {α : Type} (code message : String) (endsAt now : Time) : Except Rejection α :=
  .error { code, message, retryAfterSeconds := some (retryAfterSeconds endsAt now) }

/-- Record a completion in the attempt of an id. -/
def Operation.finish (operation : Operation) (attemptId : String) (completion : AttemptCompletion) :
    Operation :=
  { operation with attempts := operation.attempts.map fun attempt =>
      if attempt.id = attemptId then { attempt with completion := some completion } else attempt }

def controlCorrupt : String := "execution_control_integrity_corrupt"

namespace Database

variable (db : Database)

def operation? (stepId operationKey : String) : Option Operation :=
  (db.operations.get? stepId).filter (·.policy.operationKey = operationKey)

/-- The attempt of an id with the step whose operation reserved it. -/
def attempt? (attemptId : String) : Option (String × ExecutionAttempt) :=
  db.operations.entries.findSome? fun entry =>
    (entry.2.attempts.find? (·.id = attemptId)).map (entry.1, ·)

/-- The attempts of an operation, refused unless they are numbered from one without a gap. -/
def listAttempts (stepId operationKey : String) : Except Rejection (List ExecutionAttempt) := do
  let attempts := ((db.operation? stepId operationKey).map (·.attempts)).getD []
  require (attempts.map (·.attemptNumber) = List.range' 1 attempts.length) controlCorrupt
    "persisted attempt numbers are not contiguous"
  return attempts

def storeControl (control : RunExecutionControl) : Database := { db with control := some control }

def requireControl : Except Rejection RunExecutionControl :=
  requireSome db.control "execution_control_missing" "Run execution control is not initialized"

def startExecution (expectedControlVersion : Nat) (startedAt : Time) :
    Except Rejection Database := do
  let control ← db.requireControl
  match control.window with
  | some window =>
      require (window.startedAt = startedAt) "execution_start_conflict"
        "Run execution already started at a different instant"
      return db
  | none =>
      require (control.cancelRequest = none) "run_cancelled" "cancelled execution cannot be started"
      require (control.version = expectedControlVersion) "stale_execution_control"
        "execution-control version is stale"
      require (control.updatedAt ≤ startedAt) "execution_start_time_invalid"
        "execution start time is stale"
      require (db.run.state = .executing) "run_not_executing"
        "Run must be executing before its deadline starts"
      return db.storeControl { control with
        window := some { startedAt, deadlineAt := startedAt + seconds control.runTimeoutSeconds }
        updatedAt := startedAt
        version := control.version + 1 }

/-- Serialize a local completion with cancellation without charging a call. -/
def fenceActive (expectedControlVersion : Nat) (occurredAt : Time) : Bool :=
  match db.control with
  | none => false
  | some control =>
      match control.window with
      | none => false
      | some window =>
          control.version = expectedControlVersion && window.startedAt ≤ occurredAt &&
            occurredAt < window.deadlineAt && control.cancelRequest = none

def requestCancel (expectedControlVersion : Nat) (actorDigest : String) (requestedAt : Time) :
    Except Rejection Database := do
  let control ← db.requireControl
  match control.cancelRequest with
  | some request =>
      require (request.requestedAt = requestedAt ∧ request.actorDigest = actorDigest)
        "cancellation_conflict" "Run cancellation fence already differs"
      return db
  | none =>
      require (control.version = expectedControlVersion) "stale_execution_control"
        "execution-control version is stale"
      require (control.updatedAt ≤ requestedAt) "cancellation_time_invalid"
        "cancellation request time is stale"
      return db.storeControl { control with
        cancelRequest := some { requestedAt, actorDigest }
        updatedAt := requestedAt
        version := control.version + 1 }

/-- One more call in the fixed rate window that contains an instant. -/
def chargeRateWindow (policy : RateLimitPolicySnapshot) (reservedAt : Time)
    (corrupt exhausted : String) : Except Rejection Database := do
  let windowStart := fixedWindowStart reservedAt policy.windowSeconds
  let windowEnd := windowStart + seconds policy.windowSeconds
  match db.rateWindows.get? (policy.key, windowStart) with
  | none =>
      return { db with rateWindows := db.rateWindows.put (policy.key, windowStart) {
        endsAt := windowEnd
        capacity := policy.maxCalls
        used := 1
        version := 1
        updatedAt := reservedAt } }
  | some current =>
      require (current.capacity = policy.maxCalls ∧ current.endsAt = windowEnd)
        controlCorrupt corrupt
      if current.capacity ≤ current.used then
        rejectUntil "rate_limit_exhausted" exhausted windowEnd reservedAt
      else
        return { db with rateWindows := db.rateWindows.put (policy.key, windowStart) { current with
          used := current.used + 1
          version := current.version + 1
          updatedAt := reservedAt } }

/-- The checks that both kinds of call reservation make on the control. -/
def activeControl (expectedControlVersion : Nat) (reservedAt : Time)
    (staleCode staleMessage : String) :
    Except Rejection (RunExecutionControl × ExecutionWindow) := do
  let control ← db.requireControl
  require (control.cancelRequest = none) "run_cancelled" "Run is cancellation-fenced"
  let window ← requireSome control.window "execution_not_started"
    "Run execution deadline has not started"
  require (reservedAt < window.deadlineAt) "deadline_exceeded" "Run execution deadline has expired"
  require (control.version = expectedControlVersion) "stale_execution_control"
    "execution-control version is stale"
  require (control.updatedAt ≤ reservedAt) staleCode staleMessage
  return (control, window)

/-- The number and the eligibility time of the attempt that may follow the stored ones. -/
def nextAttempt (attempts : List ExecutionAttempt) (reservedAt : Time) :
    Except Rejection (Nat × Time) :=
  match attempts.getLast? with
  | none => .ok (1, reservedAt)
  | some previous =>
      match previous.completion with
      | none => reject "attempt_in_progress" "previous attempt is not completed"
      | some completion =>
          match completion.retryNotBefore with
          | none => reject (completion.terminalReasonCode.getD "attempt_not_retryable")
              "previous attempt has no retry authority"
          | some eligibleAt =>
              if reservedAt < eligibleAt then
                rejectUntil "retry_not_ready" "retry backoff has not elapsed" eligibleAt reservedAt
              else .ok (previous.attemptNumber + 1, eligibleAt)

/-- Charge one logical call of a kind to the run's budget. -/
def chargeBudget (control : RunExecutionControl) (kind : AttemptKind) :
    Except Rejection RunExecutionControl := do
  match kind with
  | .model =>
      require (control.modelCalls < control.maxModelCalls) "model_budget_exhausted"
        "Run model-call budget is exhausted"
      return { control with modelCalls := control.modelCalls + 1 }
  | .tool =>
      require (control.toolCalls < control.maxToolCalls) "tool_budget_exhausted"
        "Run tool-call budget is exhausted"
      return { control with toolCalls := control.toolCalls + 1 }
  | .noCall => return control

/-- Only the first call of a logical operation is charged. -/
def chargeLogicalCall (first : Bool) (control : RunExecutionControl) (kind : AttemptKind) :
    Except Rejection RunExecutionControl :=
  if first then chargeBudget control kind else .ok control

/-- The stored attempt answers a repeated reservation with the same facts. -/
def reservationReplay (command : AttemptReservationCommand) (stepId : String)
    (attempt : ExecutionAttempt) : Except Rejection (ExecutionAttempt × Database) := do
  require (stepId = command.stepId ∧ attempt.operationKey = command.operationKey ∧
      attempt.sourceControlVersion = command.expectedControlVersion ∧
      attempt.sourceStepVersion = command.expectedStepVersion ∧
      attempt.reservedAt = command.reservedAt)
    "attempt_id_conflict" "attempt ID already binds a different reservation"
  let _ ← requireSome db.control controlCorrupt "reserved attempt has no parent execution control"
  let operation ← requireSome (db.operation? command.stepId command.operationKey) controlCorrupt
    "reserved attempt has no operation policy"
  require ((command.inputSchemaId <|> operation.policy.requestSchemaId) =
    some attempt.inputSchemaId ∧
      attempt.redactedInput = command.redactedInput ∧
      attempt.inputClassification = command.inputClassification ∧
      attempt.inputClassification = operation.policy.dataClassification)
    "attempt_id_conflict" "attempt ID already binds different input audit facts"
  let rateLimit := operation.policy.rateLimit
  let _ ← requireSome
    (db.rateWindows.get? (rateLimit.key,
      fixedWindowStart command.reservedAt rateLimit.windowSeconds))
    controlCorrupt "reserved attempt has no rate-window witness"
  return (attempt, db)

/-- The input schema of an attempt, which a command may only repeat. -/
def attemptSchema (command : AttemptReservationCommand) (policy : OperationExecutionPolicy) :
    Except Rejection String := do
  let schemaId ← requireSome (command.inputSchemaId <|> policy.requestSchemaId)
    "execution_policy_conflict" "attempt input schema differs from the immutable operation policy"
  require (command.inputSchemaId = none ∨ command.inputSchemaId = policy.requestSchemaId)
    "execution_policy_conflict" "attempt input schema differs from the immutable operation policy"
  require (command.inputClassification = policy.dataClassification) "execution_policy_conflict"
    "attempt input classification differs from the immutable operation policy"
  return schemaId

def runnableReadStep (step : RunStep) (expectedVersion : Nat) : Bool :=
  step.version = expectedVersion && step.effect = .read && step.state ∈ [.ready, .executing]

def reserveNewAttempt (command : AttemptReservationCommand) :
    Except Rejection (ExecutionAttempt × Database) := do
  let (control, window) ← db.activeControl command.expectedControlVersion command.reservedAt
    "attempt_time_invalid" "attempt reservation time is stale"
  require (db.run.state = .executing) "run_not_executing"
    "attempt reservation requires an executing Run"
  let step ← requireSome (db.step? command.stepId) "step_fence_invalid"
    "attempt reservation requires the exact runnable READ step"
  require (runnableReadStep step command.expectedStepVersion) "step_fence_invalid"
    "attempt reservation requires the exact runnable READ step"
  let operation ← requireSome (db.operation? command.stepId command.operationKey)
    "operation_policy_missing" "attempt operation policy is missing"
  let policy := operation.policy
  let attempts ← db.listAttempts command.stepId command.operationKey
  let (attemptNumber, eligibleAt) ← nextAttempt attempts command.reservedAt
  require (attemptNumber ≤ policy.maxAttempts) "attempts_exhausted"
    "operation attempt budget is exhausted"
  let charged ← chargeLogicalCall (attemptNumber = 1) control policy.kind
  let windowed ← db.chargeRateWindow policy.rateLimit command.reservedAt
    "rate-window policy differs from the immutable operation policy"
      "fixed rate window is exhausted"
  let callDeadlineAt := min (command.reservedAt + seconds policy.stepTimeoutSeconds)
    window.deadlineAt
  require (command.reservedAt < callDeadlineAt) "deadline_exceeded"
    "no positive call window remains"
  let inputSchemaId ← attemptSchema command policy
  let attempt : ExecutionAttempt := {
    id := command.attemptId
    operationKey := command.operationKey
    policyHash := policy.policyHash
    kind := policy.kind
    attemptNumber
    sourceControlVersion := command.expectedControlVersion
    sourceStepVersion := command.expectedStepVersion
    eligibleAt
    reservedAt := command.reservedAt
    callDeadlineAt
    inputSchemaId
    redactedInput := command.redactedInput
    inputClassification := command.inputClassification
    completion := none }
  return (attempt, { windowed.storeControl { charged with
      updatedAt := command.reservedAt
      version := control.version + 1 } with
    operations := windowed.operations.set command.stepId { operation with
      attempts := operation.attempts ++ [attempt] } })

def reserveAttempt (command : AttemptReservationCommand) :
    Except Rejection (ExecutionAttempt × Database) :=
  match db.attempt? command.attemptId with
  | some (stepId, attempt) => db.reservationReplay command stepId attempt
  | none => db.reserveNewAttempt command

/-- The WRITE step whose one physical delivery may be granted. -/
def deliverableStep (step : RunStep) (control : RunExecutionControl)
    (expectedVersion : Nat) : Bool :=
  step.version = expectedVersion && step.effect = .write && step.state ∈ [.ready, .executing] &&
    step.planHash = control.policyHash && step.runtimePolicy.attemptKind = .tool &&
    step.runtimePolicy.maxAttempts = 1 && step.runtimePolicy.backoff = .none

def deliverableAction (runId : String) (action : ExternalAction) (control : RunExecutionControl)
    (command : DeliveryCallReservationCommand) : Bool :=
  action.contract.runId = runId && action.contract.stepId = command.stepId &&
    action.contract.planHash = control.policyHash &&
      action.version = command.expectedActionVersion &&
    action.state = .dispatching && action.deliveryAttemptCount = command.deliveryAttemptNumber &&
    action.lease.map (·.attemptNumber) = some command.deliveryAttemptNumber && action.call = none

/-- Reserve one physical WRITE delivery without granting template retry authority. -/
def reserveDeliveryCall (command : DeliveryCallReservationCommand) :
    Except Rejection (DeliveryCallPermit × Database) := do
  let (control, window) ← db.activeControl command.expectedControlVersion command.reservedAt
    "delivery_time_invalid" "delivery reservation time is stale"
  require (db.run.state = .executing) "run_not_executing"
    "delivery reservation requires an executing Run"
  let step ← requireSome (db.step? command.stepId) "delivery_step_fence_invalid"
    "delivery permit requires the exact runnable WRITE step policy"
  require (deliverableStep step control command.expectedStepVersion) "delivery_step_fence_invalid"
    "delivery permit requires the exact runnable WRITE step policy"
  let stored ← requireSome (db.action? command.actionId) "delivery_action_fence_invalid"
    "delivery permit requires the exact unstarted dispatch attempt"
  require (deliverableAction db.runId stored.action control command) "delivery_action_fence_invalid"
    "delivery permit requires the exact unstarted dispatch attempt"
  let logicalBudgetConsumed := stored.attempts.all fun attempt =>
    !(attempt.attemptNumber < command.deliveryAttemptNumber && attempt.started)
  let charged ← chargeLogicalCall logicalBudgetConsumed control .tool
  let rateLimit := step.runtimePolicy.rateLimit
  let windowed ← db.chargeRateWindow rateLimit command.reservedAt
    "delivery rate window differs from the immutable step policy"
    "fixed delivery rate window is exhausted"
  let callDeadlineAt := min (min (command.reservedAt + seconds step.runtimePolicy.stepSeconds)
    (command.reservedAt + seconds stored.action.contract.timeoutSeconds)) window.deadlineAt
  require (command.reservedAt < callDeadlineAt) "deadline_exceeded"
    "no positive delivery call window remains"
  return ({
      callDeadlineAt
      rateWindowStartedAt := fixedWindowStart command.reservedAt rateLimit.windowSeconds
      logicalBudgetConsumed },
    windowed.storeControl { charged with
      updatedAt := command.reservedAt
      version := control.version + 1 })

/-- The parent was cancelled, by its control or by its own state. -/
def cancellationFenced (control : RunExecutionControl) : Bool :=
  control.cancelRequest ≠ none || db.run.state = .cancelled

def terminalParent : Bool := db.run.state = .failed || db.run.state = .rejected

/-- The outcome that is recorded: a transient failure is final under a finished parent. -/
def effectiveOutcome (control : RunExecutionControl) (outcome : AttemptOutcome) : AttemptOutcome :=
  if outcome = .transientFailure then
    if db.cancellationFenced control then .cancelled
    else if db.terminalParent then .permanentFailure
    else .transientFailure
  else outcome

def effectiveErrorCode (control : RunExecutionControl) (outcome : AttemptOutcome)
    (safeErrorCode : Option String) : Option String :=
  if outcome = .succeeded then none
  else if db.cancellationFenced control then some "run_cancelled"
  else if db.terminalParent then some "parent_run_terminal"
  else some (safeErrorCode.getD "unclassified_failure")

/-- The retry time or the terminal reason that an outcome leaves behind. -/
def retryDisposition (control : RunExecutionControl) (window : ExecutionWindow)
    (policy : OperationExecutionPolicy) (attemptNumber : Nat) (outcome : AttemptOutcome)
    (completedAt : Time) : Option Time × Option String :=
  match outcome with
  | .succeeded => (none, none)
  | .permanentFailure => (none, some "permanent_failure")
  | .cancelled =>
      (none, some (if db.cancellationFenced control then "run_cancelled" else "cancelled"))
  | .transientFailure =>
      if policy.maxAttempts ≤ attemptNumber then (none, some "attempts_exhausted")
      else
        let retryNotBefore := completedAt +
          seconds (boundedRetryDelaySeconds policy.retryBackoff (attemptNumber + 1))
        if window.deadlineAt ≤ retryNotBefore then (none, some "retry_deadline_exceeded")
        else (some retryNotBefore, none)

/-- A repeated completion that the stored one already answers. -/
def completionReplay (command : AttemptCompletionCommand) (completion : AttemptCompletion)
    (control : RunExecutionControl) : Bool :=
  (completion.outcome = command.outcome ||
      command.outcome = .transientFailure && completion.outcome = .cancelled &&
        completion.terminalReasonCode = some "run_cancelled") &&
    completion.completedAt = command.completedAt &&
    (if completion.outcome = .succeeded then completion.outputArtifactId = command.outputArtifactId
      else completion.outputArtifactId = none) &&
    (command.safeErrorCode = none || completion.safeErrorCode = command.safeErrorCode) &&
    command.expectedControlVersion + 1 ≤ control.version

/-- The completion that a command leads to under the control of its run. -/
def completionOf (command : AttemptCompletionCommand) (control : RunExecutionControl)
    (window : ExecutionWindow) (policy : OperationExecutionPolicy) (attemptNumber : Nat) :
    AttemptCompletion :=
  let outcome := db.effectiveOutcome control command.outcome
  let disposition := db.retryDisposition control window policy attemptNumber outcome
    command.completedAt
  { outcome
    completedAt := command.completedAt
    retryNotBefore := disposition.1
    terminalReasonCode := disposition.2
    safeErrorCode := db.effectiveErrorCode control outcome command.safeErrorCode
    outputArtifactId := if outcome = .succeeded then command.outputArtifactId else none }

def completeOpenAttempt (command : AttemptCompletionCommand) (stepId : String)
    (attempt : ExecutionAttempt) (control : RunExecutionControl) (window : ExecutionWindow) :
    Except Rejection (AttemptCompletion × Database) := do
  require (db.run.state ∈ [.executing, .cancelled, .failed, .rejected]) controlCorrupt
    "open attempt belongs to a non-executable parent Run state"
  require (control.version = command.expectedControlVersion) "stale_execution_control"
    "attempt completion lost its execution-control version fence"
  require (max (max attempt.reservedAt control.updatedAt) db.run.updatedAt ≤ command.completedAt)
    "attempt_completion_time_invalid" "attempt completion predates its reservation or Run control"
  let operation ← requireSome (db.operation? stepId attempt.operationKey) controlCorrupt
    "attempt completion has no exact operation"
  let completion := db.completionOf command control window operation.policy attempt.attemptNumber
  return (completion, { db.storeControl { control with
      updatedAt := command.completedAt
      version := control.version + 1 } with
    operations := db.operations.set stepId (operation.finish command.attemptId completion) })

/-- Complete an attempt, or repeat the answer of the completion that is stored. -/
def completeAttempt (command : AttemptCompletionCommand) :
    Except Rejection (AttemptCompletion × Database) := do
  command.validate
  let (stepId, attempt) ← requireSome (db.attempt? command.attemptId) "attempt_missing"
    "attempt completion requires a persisted reservation"
  let control ← requireSome db.control controlCorrupt "attempt completion has no exact Run control"
  let window ← requireSome control.window controlCorrupt
    "attempt completion has no exact Run control"
  match attempt.completion with
  | some completion =>
      require (completionReplay command completion control) "attempt_completion_conflict"
        "attempt already has a different completion"
      return (completion, db)
  | none => db.completeOpenAttempt command stepId attempt control window

/-- The outcome that recovery derives for an attempt whose call authority has expired. -/
def recoveryOutcome (control : RunExecutionControl) : AttemptOutcome :=
  if db.cancellationFenced control then .cancelled
  else if db.terminalParent then .permanentFailure
  else .transientFailure

def recoveryErrorCode : AttemptOutcome → String
  | .cancelled => "run_cancelled"
  | .permanentFailure => "parent_run_terminal"
  | _ => "connector_timeout"

/-- Close one expired crash-orphaned attempt without caller-owned outcome authority. -/
def recoverExpiredAttempt (command : ExpiredAttemptRecoveryCommand) :
    Except Rejection (AttemptCompletion × Database) := do
  command.validate
  let (stepId, attempt) ← requireSome (db.attempt? command.attemptId) "attempt_missing"
    "attempt recovery requires a persisted reservation"
  require (attempt.callDeadlineAt = command.expectedCallDeadlineAt) "attempt_completion_conflict"
    "attempt recovery deadline differs from the persisted reservation"
  let operation ← requireSome (db.operation? stepId attempt.operationKey) controlCorrupt
    "attempt recovery has no exact operation or Run control"
  let control ← requireSome db.control controlCorrupt
    "attempt recovery has no exact operation or Run control"
  let window ← requireSome control.window controlCorrupt
    "attempt recovery has no exact operation or Run control"
  require (min (attempt.reservedAt + seconds operation.policy.stepTimeoutSeconds)
    window.deadlineAt =
      attempt.callDeadlineAt) controlCorrupt
        "attempt recovery deadline differs from immutable policy"
  match attempt.completion with
  | some completion =>
      require (attempt.callDeadlineAt ≤ completion.completedAt ∧
          completion.outcome = db.recoveryOutcome control) "attempt_completion_conflict"
        "attempt recovery lost to a different authoritative completion"
      return (completion, db)
  | none =>
      require (db.run.state ≠ .completed) controlCorrupt
        "completed Run cannot retain an open READ attempt"
      db.completeAttempt {
        attemptId := command.attemptId
        outcome := db.recoveryOutcome control
        expectedControlVersion := control.version
        completedAt := command.recoveredAt
        safeErrorCode := some (recoveryErrorCode (db.recoveryOutcome control))
        outputArtifactId := none }

end Database

end MarketingAgents
