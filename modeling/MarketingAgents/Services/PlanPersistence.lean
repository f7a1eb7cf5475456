import MarketingAgents.Persistence.ExecutionControlRepository
import MarketingAgents.Services.ControlledReadExecutor
import MarketingAgents.Services.Transitions

namespace MarketingAgents

open Library

/-! # Sealed plans and their activation -/

/-- A step as planning materializes it. -/
def RunStep.fresh (planHash : String) (step : RunStep) : Bool :=
  step.state = .pending && step.version = 1 && step.planHash = planHash &&
    step.terminalReasonCode = none

/-- The step is executed by calls that are reserved one by one. -/
def RunStep.callable (step : RunStep) : Bool :=
  step.effect = .read && step.runtimePolicy.attemptKind ≠ .noCall

/-- An operation binds one callable READ step and has no attempt yet. -/
def Operation.fresh (operation : Operation) (step : RunStep) : Bool :=
  step.callable && operationBindsStep operation.policy step && operation.attempts = []

/-- Exactly the callable steps have an operation. -/
def operationsBind (steps : Table String RunStep) (operations : Table String Operation) : Bool :=
  operations.entries.all (fun entry =>
      steps.entries.any fun step => step.1 = entry.1 && entry.2.fresh step.2) &&
    steps.entries.all fun step =>
      !step.2.callable || operations.entries.any fun entry => entry.1 = step.1

def RunExecutionControl.fresh (control : RunExecutionControl) (planHash : String) : Bool :=
  control.policyHash = planHash && control.modelCalls = 0 && control.toolCalls = 0 &&
    control.window = none && control.cancelRequest = none && control.version = 1

/-- The open authorization set of a write plan with its actions and requests. -/
structure ApprovalEpoch where
  setId : String
  head : AuthorizationSetHead
  set : AuthorizationSet
  actions : Table String StoredAction
  requests : Table String ApprovalRequest

namespace ApprovalEpoch

variable (epoch : ApprovalEpoch)

def actionProposed (planHash : String) (stored : StoredAction)
    (member : AuthorizationSetMember) : Bool :=
  stored.action.state = .awaitingApproval && stored.action.deliveryAttemptCount = 0 &&
    stored.attempts = [] && stored.action.reservation = none &&
    stored.action.contract.planHash = planHash &&
    stored.action.contract.authorizationSetId = epoch.setId &&
    stored.action.contract.proposalRevision = epoch.set.proposalRevision &&
    stored.action.contract.actionHash = member.actionHash &&
    stored.action.contract.stepId = member.stepId && stored.action.contract.stepKey = member.stepKey

/-- Every member names one proposed action and one WRITE step, and no two share either. -/
def membersBind (planHash : String) (steps : Table String RunStep) : Bool :=
  (epoch.set.members.map (·.stepId)).Nodup && (epoch.set.members.map (·.actionId)).Nodup &&
    epoch.set.members.all (fun member => member.release = none &&
      epoch.actions.entries.any (fun entry => entry.1 = member.actionId &&
        epoch.actionProposed planHash entry.2 member) &&
      steps.entries.any fun step => step.1 = member.stepId && step.2.effect = .write &&
        step.2.key = member.stepKey) &&
    epoch.actions.entries.all (fun entry => epoch.set.members.any (·.actionId = entry.1)) &&
    steps.entries.all fun step =>
      step.2.effect = .read || epoch.set.members.any (·.stepId = step.1)

def setOpen (planHash : String) : Bool :=
  epoch.head.currentSetId = epoch.setId && epoch.head.planHash = planHash &&
    epoch.head.proposalRevision = epoch.set.proposalRevision &&
    epoch.head.membershipHash = epoch.set.membershipHash && epoch.set.planHash = planHash &&
    epoch.set.status = .open && epoch.set.release = none

end ApprovalEpoch

/-- A plan whose steps, operations and approval epoch agree with each other. -/
structure SealedPlan where
  planHash : String
  steps : Table String RunStep
  operations : Table String Operation
  control : RunExecutionControl
  epoch : Option ApprovalEpoch
  nonempty : steps.entries ≠ []
  stepsFresh : ∀ entry ∈ steps.entries, entry.2.fresh planHash
  keysDistinct : (steps.entries.map (·.2.key)).Nodup
  dependenciesPlanned : ∀ entry ∈ steps.entries, ∀ key ∈ entry.2.dependencyKeys,
    ∃ other ∈ steps.entries, other.2.key = key
  operationsBound : operationsBind steps operations
  controlFresh : control.fresh planHash
  readOnly : epoch = none → ∀ entry ∈ steps.entries, entry.2.effect = .read
  approvalBound : ∀ set ∈ epoch, set.setOpen planHash ∧ set.membersBind planHash steps ∧
    ∃ entry ∈ steps.entries, entry.2.effect = .write

namespace SealedPlan

def containsWriteActions (plan : SealedPlan) : Bool := plan.epoch.isSome

/-- The rows that a plan adds to its run. -/
def install (plan : SealedPlan) (db : Database) : Database :=
  let planned := { db with
    steps := plan.steps
    operations := plan.operations
    control := some plan.control }
  match plan.epoch with
  | none => planned
  | some epoch => { planned with
      actions := epoch.actions
      authorizationHead := some epoch.head
      authorizationSets := db.authorizationSets.put epoch.setId epoch.set
      approvalRequests := epoch.requests }

end SealedPlan

namespace PlanPersistenceService

/-- Persist a plan and, when it writes, move it to its approval boundary. -/
def persist (db : Database) (plan : SealedPlan) (expectedVersion : Nat)
    (occurredAt activatedAt : Time) : Except Rejection Database := do
  require (db.run.state = .validated) "run_not_validated" "only a validated Run may persist a plan"
  require (db.run.version = expectedVersion) "stale_run_version"
    "Run changed before its deterministic plan was persisted"
  let (planned, plannedDb) ← db.advanceRun .recordPlan (.planDisposition plan.containsWriteActions)
    occurredAt "stale_run_version" "Run changed before the complete plan transaction committed"
  let installed := (plan.install plannedDb).appendAudits [.runTransition planned.transition none]
  if plan.containsWriteActions then
    let (waiting, waitingDb) ← advanceSteps planned.run .waitForApproval .none activatedAt
      "write_plan_activation_conflict" "write step changed before approval-boundary activation"
      (installed.stepsWhere fun _ step => step.effect = .write) installed
    let (activated, after) ← waitingDb.advanceRun .activatePlan .none activatedAt
      "write_plan_activation_conflict" "Run changed before approval-boundary activation"
    return after.appendAudits (stepEvents waiting ++ [.runTransition activated.transition none])
  else return installed

end PlanPersistenceService

namespace ExecutionActivationService

/-- An executing run repeats the activation it already has. -/
def activationReplay (db : Database) (control : RunExecutionControl) : Bool :=
  match db.runTransitions.filter (·.command = .activatePlan) with
  | [activation] =>
      control.window.any (fun window => window.startedAt = activation.occurredAt) &&
        db.steps.rows.all fun step => step.state ≠ .pending || step.dependencyKeys ≠ []
  | _ => false

/-- Start the deadline of a read-only plan and ready its roots. -/
def activate (db : Database) (activatedAt : Time) : Except Rejection Database := do
  let planHash ← requireSome db.planHash? "execution_control_invalid"
    "direct activation lacks one exact sealed read execution plan"
  let control ← requireSome db.control "execution_control_invalid"
    "direct activation lacks one exact sealed read execution plan"
  require (db.run.approvalRequired = some false ∧ control.policyHash = planHash)
    "execution_control_invalid" "direct activation lacks one exact sealed read execution plan"
  if db.run.state = .executing then
    require (activationReplay db control) "execution_activation_replay_invalid"
      "executing Run lacks its exact activation and root-step witnesses"
    return db
  else
    require (db.run.state = .planned ∧ control.window = none) "run_not_planned"
      "only an unstarted planned Run can activate"
    require (db.steps.rows.all fun step => step.state = .pending) "execution_activation_step_drift"
      "unstarted direct plan steps must remain pending"
    let (runResult, executing) ← db.advanceRun .activatePlan .none activatedAt
      "execution_activation_conflict" "Run changed before direct activation committed"
    let roots := db.stepsWhere fun _ step => step.dependencyKeys = []
    require (roots ≠ []) "execution_root_missing" "direct execution plan has no dependency root"
    let (ready, readyDb) ← advanceSteps runResult.run .markReady .none activatedAt
      "execution_activation_conflict" "root step changed before direct activation committed" roots
      executing
    let started ← readyDb.startExecution control.version activatedAt
    return started.appendAudits (.runTransition runResult.transition none :: stepEvents ready)

end ExecutionActivationService

end MarketingAgents
