import MarketingAgents.Persistence.ExecutionControlRepository
import MarketingAgents.Services.Transitions

namespace MarketingAgents

open Library

/-! # The run and step lifecycle services

The general services that persist one accepted transition.  Commands that
need more than a transition are refused here and left to the service that
composes them.
-/

namespace RunLifecycleService

/-- The command crosses the approval boundary of a write plan. -/
def approvalBoundaryCommand (run : Run) (command : RunLifecycleCommand) : Bool :=
  command ∈ [.releaseApprovedPlan, .rejectApproval] ||
    run.approvalRequired = some true && command ∈ [.activatePlan, .cancel]

/-- The command has to be composed with the runtime control of a read plan. -/
def controlledCommand (db : Database) (command : RunLifecycleCommand) : Bool :=
  db.run.approvalRequired = some false && command ∈ [.activatePlan, .cancel] && db.control ≠ none

def completionCounts (db : Database) : RunTransitionContext :=
  let states := db.steps.rows.map (·.state)
  let succeeded := states.count .succeeded
  let failed := states.count .failed
  .completion states.length succeeded failed (states.length - succeeded - failed)

def attemptAdvance (db : Database) (expectedVersion : Nat) (command : RunLifecycleCommand)
    (context : RunTransitionContext) (occurredAt : Time) : Except Rejection Database := do
  require (approvalBoundaryCommand db.run command = false) "approval_boundary_service_required"
    "write-plan lifecycle commands require persisted approval-boundary composition"
  require (controlledCommand db command = false) "execution_control_service_required"
    "controlled activation and cancellation require runtime-control composition"
  require (command ≠ .recordPlan) "record_plan_requires_snapshot"
    "record-plan transitions require atomic plan persistence"
  require (db.run.version = expectedVersion) "stale_run_version"
    "run changed before the lifecycle command was applied"
  require (command = .complete → context = completionCounts db) "execution_incomplete"
    "completion counts do not match persisted Run steps"
  let (result, after) ← db.advanceRun command context occurredAt "stale_run_version"
    "run changed concurrently before the lifecycle command was persisted"
  return after.appendAudits [.runTransition result.transition none]

end RunLifecycleService

namespace RunStepLifecycleService

/-- The parent states in which a command may be applied to a step. -/
def allowedParentStates : StepLifecycleCommand → List RunState
  | .waitForApproval => [.planned, .awaitingApproval]
  | .reject => [.awaitingApproval]
  | _ => [.executing]

/-- A controlled READ step has an operation, and its calls carry its transitions. -/
def controlledReadCommand (db : Database) (stepId : String) (step : RunStep)
    (command : StepLifecycleCommand) : Bool :=
  command ∈ [.start, .succeed, .fail, .cancel] &&
    (db.operation? stepId step.runtimePolicy.operationKey).isSome

def approvalBoundaryCommand (step : RunStep) (command : StepLifecycleCommand) : Bool :=
  step.effect = .write && command ∈ [.waitForApproval, .releaseApproval, .start,
    .startReservedWrite, .reject, .cancel, .skip]

/-- Every step that a step depends on has succeeded. -/
def dependenciesSucceeded (db : Database) (step : RunStep) : Bool :=
  step.dependencyKeys.all fun key =>
    db.steps.rows.any fun other => other.key = key && other.state = .succeeded

def advance (db : Database) (stepId : String) (expectedVersion : Nat)
    (command : StepLifecycleCommand)
    (context : StepTransitionContext) (occurredAt : Time) : Except Rejection Database := do
  let current ← requireSome (db.step? stepId) "step_not_found" "Run step does not exist"
  require (current.version = expectedVersion) "stale_step_version"
    "Run step changed before its lifecycle command was applied"
  require (controlledReadCommand db stepId current command = false)
    "execution_control_service_required"
    "controlled READ mutations require durable attempt composition"
  require (approvalBoundaryCommand current command = false) "approval_boundary_service_required"
    "write-step lifecycle commands require persisted approval-boundary composition"
  require (db.run.state ∈ allowedParentStates command) "parent_run_not_executable"
    "parent Run state does not authorize this step transition"
  require (command = .markReady → dependenciesSucceeded db current)
    "step_dependency_barrier_incomplete"
    "all dependency steps must have succeeded before this step is ready"
  let (result, after) ← db.advanceStep db.run stepId current command context occurredAt
    "stale_step_version" "Run step changed concurrently before its transition committed"
  return after.appendAudits [.stepTransition result.transition]

end RunStepLifecycleService

/-- What tells the local executors apart: the family of their steps and the
prefix of their error codes. -/
structure LocalExecutor where
  connectorFamily : String
  codePrefix : String

namespace LocalExecutor

variable (executor : LocalExecutor)

def refuse (check : Prop) [Decidable check] (code : String) : Except Rejection Unit :=
  require check (executor.codePrefix ++ code) (executor.codePrefix ++ code)

/-- The only step of a read-only plan, which no call has been charged to. -/
def contractHolds (db : Database) (step : RunStep) (control : RunExecutionControl) : Bool :=
  step.connectorFamily = executor.connectorFamily && step.effect = .read &&
    step.runtimePolicy.attemptKind = .noCall && db.steps.rows = [step] &&
    step.dependencyKeys = [] && control.policyHash = step.planHash &&
    db.run.approvalRequired = some false && control.modelCalls = 0 && control.toolCalls = 0

/-- Render one artifact and take its step from READY to SUCCEEDED in one transaction. -/
def execute (db : Database) (stepId : String) (now completedAt : Time) :
    Except Rejection Database := do
  let step ← requireSome (db.step? stepId) (executor.codePrefix ++ "step_missing")
    (executor.codePrefix ++ "step_missing")
  let control ← requireSome db.control (executor.codePrefix ++ "execution_snapshot_missing")
    (executor.codePrefix ++ "execution_snapshot_missing")
  executor.refuse (executor.contractHolds db step control) "execution_contract_invalid"
  if step.state = .succeeded then return db
  else
    executor.refuse (step.state = .ready) "step_not_ready"
    executor.refuse (db.run.state = .executing ∧ db.fenceActive control.version now)
      "execution_fence_lost"
    executor.refuse (control.window.any fun window => completedAt < window.deadlineAt)
      "execution_deadline_exceeded"
    let (started, startedDb) ← db.advanceStep db.run stepId step .start .none now
      (executor.codePrefix ++ "step_fence_lost") (executor.codePrefix ++ "step_fence_lost")
    let (finished, after) ← startedDb.advanceStep db.run stepId started.step .succeed
      .none completedAt
      (executor.codePrefix ++ "step_fence_lost") (executor.codePrefix ++ "step_fence_lost")
    return after.appendAudits (stepEvents [started, finished])

end LocalExecutor

/-- The executor of role artifacts. -/
def localArtifactExecutor : LocalExecutor :=
  { connectorFamily := "artifact", codePrefix := "local_" }

/-- The executor of proposal previews. -/
def proposalPreviewExecutor : LocalExecutor :=
  { connectorFamily := "planner-output", codePrefix := "preview_" }

end MarketingAgents
