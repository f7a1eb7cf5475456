import MarketingAgents.Domain.Rejection
import MarketingAgents.Domain.RuntimePolicy

namespace MarketingAgents

inductive StepLifecycleCommand where
  | initializeStep
  | markReady
  | waitForApproval
  | releaseApproval
  | start
  | startReservedWrite
  | succeed
  | fail
  | reject
  | cancel
  | skip
deriving DecidableEq, Repr

inductive StepTransitionContext where
  | none
  | terminal (reasonCode : String)
deriving DecidableEq

structure StepStateTransition where
  stepId : String
  sequence : Nat
  command : StepLifecycleCommand
  previousState : Option StepState
  newState : StepState
  reasonCode : String
  occurredAt : Time
  expectedVersion : Nat
  resultingVersion : Nat
deriving DecidableEq

/-- One persisted step of a sealed plan. -/
structure RunStep where
  key : String
  effect : Effect
  connectorFamily : String
  dependencyKeys : List String
  planHash : String
  requestSchemaId : Option String
  dataClassification : String
  timeoutSeconds : Option Nat
  runtimePolicy : StepRuntimePolicy
  state : StepState
  updatedAt : Time
  version : Nat
  terminalReasonCode : Option String
deriving DecidableEq

structure StepTransitionResult where
  step : RunStep
  transition : StepStateTransition
deriving DecidableEq

/-- A transition that takes no context and records a fixed reason. -/
def plainTransition (context : StepTransitionContext) (legal : Prop) [Decidable legal]
    (newState : StepState) (reasonCode message : String) : Except Rejection (StepState × String) :=
  if legal ∧ context = .none then .ok (newState, reasonCode)
    else reject "invalid_transition" message

/-- A transition that records the reason its terminal context carries. -/
def terminalTransition (context : StepTransitionContext) (legal : Prop) [Decidable legal]
    (newState : StepState) (message : String) : Except Rejection (StepState × String) :=
  match context with
  | .none => reject "invalid_transition" message
  | .terminal reasonCode =>
      if legal then .ok (newState, reasonCode) else reject "invalid_transition" message

/-- The state a command leads to and the reason it records, where it is legal. -/
def nextStepState (step : RunStep) (command : StepLifecycleCommand)
    (context : StepTransitionContext) : Except Rejection (StepState × String) :=
  match command with
  | .markReady => plainTransition context (step.state = .pending ∧ step.effect = .read)
      .ready "step_dependencies_satisfied" "step cannot become ready"
  | .waitForApproval => plainTransition context (step.state = .pending ∧ step.effect = .write)
      .awaitingApproval "step_approval_required" "step cannot await approval"
  | .releaseApproval =>
      plainTransition context (step.state = .awaitingApproval ∧ step.effect = .write)
      .ready "approval_barrier_released" "write step approval cannot release"
  | .start => plainTransition context (step.state = .ready ∧ step.effect = .read)
      .executing "step_execution_started" "step cannot start"
  | .startReservedWrite => plainTransition context (step.state = .ready ∧ step.effect = .write)
      .executing "reserved_write_started" "reserved write step cannot start"
  | .succeed => plainTransition context (step.state = .executing)
      .succeeded "step_succeeded" "step cannot succeed"
  | .fail => terminalTransition context (step.state ∈ [.ready, .executing])
      .failed "step cannot fail"
  | .reject => terminalTransition context (step.state = .awaitingApproval)
      .rejected "step cannot be rejected"
  | .cancel => terminalTransition context (step.state ∈ [.pending, .ready, .awaitingApproval])
      .cancelled "step cannot be cancelled"
  | .skip => terminalTransition context (step.state ∈ [.pending, .ready, .awaitingApproval])
      .skipped "step cannot be skipped"
  | .initializeStep => reject "invalid_transition" "step lifecycle command is not legal here"

/-- Apply one legal step command; callers cannot nominate the target state. -/
def transitionStep (stepId : String) (step : RunStep) (command : StepLifecycleCommand)
    (context : StepTransitionContext) (occurredAt : Time) :
      Except Rejection StepTransitionResult := do
  require (step.updatedAt ≤ occurredAt) "non_monotonic_time" "step transition time is stale"
  require (step.state.terminal = false) "terminal_state_immutable"
    "terminal step state is immutable"
  let (newState, reasonCode) ← nextStepState step command context
  return {
    step := { step with
      state := newState
      updatedAt := occurredAt
      version := step.version + 1
      terminalReasonCode := if newState.terminal then some reasonCode else none }
    transition := {
      stepId
      sequence := step.version + 1
      command
      previousState := some step.state
      newState
      reasonCode
      occurredAt
      expectedVersion := step.version
      resultingVersion := step.version + 1 } }

end MarketingAgents
