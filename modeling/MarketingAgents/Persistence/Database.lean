import MarketingAgents.Library.Table
import MarketingAgents.Domain.Approval
import MarketingAgents.Domain.Audit
import MarketingAgents.Domain.ExecutionControl
import MarketingAgents.Domain.ExternalAction
import MarketingAgents.Domain.RunLifecycle
import MarketingAgents.Domain.StepLifecycle

namespace MarketingAgents

open Library

/-- An external action row with its delivery attempts, in the order they were inserted. -/
structure StoredAction where
  action : ExternalAction
  attempts : List DispatchAttempt
deriving DecidableEq

/-- The rows that belong to one run, with the rate windows it shares with other runs. -/
structure Database where
  runId : String
  workMode : WorkMode
  run : Run
  runTransitions : List RunStateTransition
  steps : Table String RunStep
  stepTransitions : List StepStateTransition
  operations : Table String Operation
  control : Option RunExecutionControl
  actions : Table String StoredAction
  receipts : Table (String × String) ConnectorActionReceipt
  authorizationHead : Option AuthorizationSetHead
  authorizationSets : Table String AuthorizationSet
  approvalRequests : Table String ApprovalRequest
  approvalUses : Table String ApprovalUse
  rateWindows : Table (String × Time) RateLimitWindow
  audits : List AuditEvent
deriving DecidableEq

namespace Database

variable (db : Database)

def action? (actionId : String) : Option StoredAction := db.actions.get? actionId

def step? (stepId : String) : Option RunStep := db.steps.get? stepId

def appendAudits (events : List AuditEvent) : Database := { db with audits := db.audits ++ events }

/-- A denial with the same identity has already been witnessed. -/
def denialRecorded (denial : RuntimeControlDenial) : Bool :=
  db.audits.any fun event =>
    match event with
    | .runtimeControlDenied recorded _ _ => recorded = denial
    | _ => false

def storeAction (actionId : String) (stored : StoredAction) : Database :=
  { db with actions := db.actions.set actionId stored }

def storeStep (stepId : String) (step : RunStep) : Database :=
  { db with steps := db.steps.set stepId step }

/-- A dependency of a step has not succeeded. -/
def unsatisfiedDependency (stepId : String) : Bool :=
  match db.step? stepId with
  | none => false
  | some step =>
      db.steps.rows.any fun other => other.key ∈ step.dependencyKeys && other.state ≠ .succeeded

/-- The compare-and-swap of a step row behind the lock of its parent run. -/
def applyStepTransition (expectedRunVersion : Nat) (expectedRunState : RunState)
    (expectedVersion : Nat) (expectedState : StepState) (result : StepTransitionResult) :
    Option Database := do
  guard (result.transition.expectedVersion = expectedVersion ∧
    result.transition.previousState = some expectedState)
  guard (db.run.version = expectedRunVersion ∧ db.run.state = expectedRunState)
  let current ← db.step? result.transition.stepId
  guard (current.version = expectedVersion ∧ current.state = expectedState)
  let updated := { current with
    state := result.step.state
    updatedAt := result.step.updatedAt
    version := result.step.version
    terminalReasonCode := result.step.terminalReasonCode }
  return { db.storeStep result.transition.stepId updated with
    stepTransitions := db.stepTransitions ++ [result.transition] }

/-- The compare-and-swap of the run row. -/
def applyRunTransition (expectedVersion : Nat) (expectedState : RunState)
    (result : RunTransitionResult) : Option Database := do
  guard (result.transition.expectedVersion = expectedVersion ∧
    result.transition.previousState = some expectedState)
  guard (db.run.version = expectedVersion ∧ db.run.state = expectedState)
  return { db with
    run := { db.run with
      state := result.run.state
      approvalRequired := result.run.approvalRequired
      terminalReasonCode := result.run.terminalReasonCode
      updatedAt := result.run.updatedAt
      version := result.run.version }
    runTransitions := db.runTransitions ++ [result.transition] }

end Database

end MarketingAgents
