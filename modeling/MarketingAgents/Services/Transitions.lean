import MarketingAgents.Persistence.ActionRepository

namespace MarketingAgents

/-! # Transitions inside a unit of work

The services compute a transition from rows they have read and apply it
behind those rows' versions.
-/

namespace Database

variable (db : Database)

/-- Apply one command to a step as it was read, behind its run as it was read. -/
def advanceStep (run : Run) (stepId : String) (step : RunStep) (command : StepLifecycleCommand)
    (context : StepTransitionContext) (occurredAt : Time) (code message : String) :
    Except Rejection (StepTransitionResult × Database) := do
  let result ← transitionStep stepId step command context occurredAt
  let after ← requireSome
    (db.applyStepTransition run.version run.state step.version step.state result) code message
  return (result, after)

def advanceRun (command : RunLifecycleCommand) (context : RunTransitionContext) (occurredAt : Time)
    (code message : String) : Except Rejection (RunTransitionResult × Database) := do
  let result ← transitionRun db.run command context occurredAt
  let after ← requireSome (db.applyRunTransition db.run.version db.run.state result) code message
  return (result, after)

/-- The steps of a sealed plan that satisfy a test, in plan order. -/
def stepsWhere (test : String → RunStep → Bool) : List (String × RunStep) :=
  db.steps.entries.filter fun entry => test entry.1 entry.2

/-- The external actions registered for a plan. -/
def listRunPlan (planHash : String) : List (String × StoredAction) :=
  db.actions.entries.filter fun entry => entry.2.action.contract.planHash = planHash

end Database

/-- Apply one command to every step of a list, in order. -/
def advanceSteps (run : Run) (command : StepLifecycleCommand) (context : StepTransitionContext)
    (occurredAt : Time) (code message : String) :
    List (String × RunStep) → Database → Except Rejection (List StepTransitionResult × Database)
  | [], db => .ok ([], db)
  | (stepId, step) :: rest, db => do
      let (result, moved) ← db.advanceStep run stepId step command context occurredAt code message
      let (results, after) ← advanceSteps run command context occurredAt code message rest moved
      return (result :: results, after)

/-- Cancel every action of a list before its call, refusing the whole pass if one changed. -/
def cancelUnstarted (planHash : String) (occurredAt : Time) (reasonCode code message : String) :
    List (String × StoredAction) → Database → Except Rejection Database
  | [], db => .ok db
  | (actionId, stored) :: rest, db => do
      let after ← requireSome
        (db.cancelUnstartedAfterRelease (db.action? actionId) actionId db.runId
        planHash stored.action.version occurredAt reasonCode) code message
      cancelUnstarted planHash occurredAt reasonCode code message rest after

/-- A released action whose provider call has not started. -/
def preCall (action : ExternalAction) : Bool :=
  action.state ∈ [.dispatchReserved, .dispatching] && action.call = none

def stepEvents (results : List StepTransitionResult) : List AuditEvent :=
  results.map fun result => .stepTransition result.transition

end MarketingAgents
