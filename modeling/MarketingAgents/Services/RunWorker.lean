import MarketingAgents.Services.ControlledReadExecutor
import MarketingAgents.Services.ExternalActionDispatcher
import MarketingAgents.Services.Lifecycles

namespace MarketingAgents

open Library

namespace RunWorker

/-- The first step in plan order that is ready or executing. -/
def failedStep (db : Database) : Option (String × RunStep) :=
  db.steps.entries.find? fun entry => entry.2.state ∈ [.ready, .executing]

/-- Fail a run whose advancement raised: with one of its steps while it is
executing, alone in every other phase. -/
def fail (db : Database) (now : Time) : Except Rejection Database := do
  if db.run.state.terminal then return db
  else
    match (failedStep db).filter fun _ => db.run.state = .executing with
    | some (stepId, step) =>
        let (cleanup, after) ← TerminalExecutionCleanupService.failOrdinary db stepId step.planHash
          "unclassified_failure" now none
        return after.appendAudits cleanup.auditEvents
    | none =>
        let phase ← requireSome (allowedFailurePhase db.run.state) "terminal_state_immutable"
          "terminal run state is immutable"
        RunLifecycleService.attemptAdvance db db.run.version .fail
          (.failure phase "unclassified_failure") now

end RunWorker

end MarketingAgents
