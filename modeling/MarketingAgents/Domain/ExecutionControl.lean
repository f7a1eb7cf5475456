import MarketingAgents.Domain.RuntimePolicy

namespace MarketingAgents

inductive AttemptOutcome where
  | succeeded
  | transientFailure
  | permanentFailure
  | cancelled
deriving DecidableEq, Repr

/-- One immutable generic READ-operation execution policy. -/
structure OperationExecutionPolicy where
  operationKey : String
  kind : AttemptKind
  policyHash : String
  requestSchemaId : Option String
  dataClassification : String
  maxAttempts : Nat
  retryBackoff : RetryBackoff
  stepTimeoutSeconds : Nat
  rateLimit : RateLimitPolicySnapshot
  callable : kind ≠ .noCall
deriving DecidableEq

/-- The start of a run's execution and the deadline derived from it. -/
structure ExecutionWindow where
  startedAt : Time
  deadlineAt : Time
deriving DecidableEq

structure CancellationRequest where
  requestedAt : Time
  actorDigest : String
deriving DecidableEq

/-- The authoritative budget, deadline and cancellation fence of one run. -/
structure RunExecutionControl where
  policyHash : String
  runTimeoutSeconds : Nat
  maxModelCalls : Nat
  maxToolCalls : Nat
  modelCalls : Nat
  toolCalls : Nat
  window : Option ExecutionWindow
  cancelRequest : Option CancellationRequest
  createdAt : Time
  updatedAt : Time
  version : Nat
deriving DecidableEq

structure AttemptCompletion where
  outcome : AttemptOutcome
  completedAt : Time
  retryNotBefore : Option Time
  terminalReasonCode : Option String
  safeErrorCode : Option String
  outputArtifactId : Option String
deriving DecidableEq

structure ExecutionAttempt where
  id : String
  operationKey : String
  policyHash : String
  kind : AttemptKind
  attemptNumber : Nat
  sourceControlVersion : Nat
  sourceStepVersion : Nat
  eligibleAt : Time
  reservedAt : Time
  callDeadlineAt : Time
  inputSchemaId : String
  redactedInput : String
  inputClassification : String
  completion : Option AttemptCompletion
deriving DecidableEq

namespace ExecutionAttempt

/-- An attempt is written once when it is reserved and once when it completes. -/
def version (attempt : ExecutionAttempt) : Nat :=
  if attempt.completion.isSome then 2 else 1

def outcome (attempt : ExecutionAttempt) : Option AttemptOutcome :=
  attempt.completion.map (·.outcome)

def retryNotBefore (attempt : ExecutionAttempt) : Option Time :=
  attempt.completion.bind (·.retryNotBefore)

def terminalReasonCode (attempt : ExecutionAttempt) : Option String :=
  attempt.completion.bind (·.terminalReasonCode)

def isOpen (attempt : ExecutionAttempt) : Bool := attempt.completion.isNone

end ExecutionAttempt

/-- An operation policy with the attempts reserved under it, in reservation order. -/
structure Operation where
  policy : OperationExecutionPolicy
  attempts : List ExecutionAttempt
deriving DecidableEq

structure RateLimitWindow where
  endsAt : Time
  capacity : Nat
  used : Nat
  version : Nat
  updatedAt : Time
deriving DecidableEq

end MarketingAgents
