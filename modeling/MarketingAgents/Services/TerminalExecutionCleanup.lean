import MarketingAgents.Persistence.ActionRepository
import MarketingAgents.Persistence.ApprovalRepository
import MarketingAgents.Services.RunCancellation

namespace MarketingAgents

open Library

/-! # Terminal cleanup of an executing run

Shared by the READ and WRITE executors and by the run worker: fail one step
and its run, and close the siblings that have no external call in flight.
-/

structure TerminalCleanup where
  deniedStep : RunStep
  auditEvents : List AuditEvent

namespace TerminalExecutionCleanupService

/-- The members of a released set and the action rows of its plan name each other. -/
def memberCovers (set : AuthorizationSet) (actions : List (String × StoredAction)) : Bool :=
  set.members.all (fun member => actions.any fun entry => entry.1 = member.actionId) &&
    actions.all fun entry =>
      entry.2.action.contract.proposalRevision = set.proposalRevision &&
        set.members.any fun member =>
          member.actionId = entry.1 && member.actionHash = entry.2.action.contract.actionHash &&
            member.stepId = entry.2.action.contract.stepId &&
            member.stepKey = entry.2.action.contract.stepKey

/-- The released set covers every WRITE step of the plan and every action of it. -/
def coversReleasedSet (set : AuthorizationSet) (writeSteps : List (String × RunStep))
    (actions : List (String × StoredAction)) : Bool :=
  (set.members.map (·.actionId)).Nodup && memberCovers set actions &&
    set.members.all (fun member => writeSteps.any fun entry => entry.1 = member.stepId) &&
    writeSteps.all fun entry => set.members.any fun member => member.stepId = entry.1

/-- The actions of the plan that a cleanup has to look at. -/
def planActions (db : Database) (planHash failedStepId : String) (focalActionId : Option String) :
    Except Rejection (List (String × StoredAction)) := do
  let writeSteps := db.stepsWhere fun _ step => step.effect = .write
  if writeSteps = [] then
    require (db.run.approvalRequired ≠ some true ∧ focalActionId = none)
      "terminal_cleanup_action_set_invalid"
      "approval-required runtime cleanup has no sealed WRITE steps"
    return []
  else
    require (db.run.approvalRequired = some true) "terminal_cleanup_action_set_invalid"
      "direct runtime cleanup found sealed WRITE steps without authorization"
    let actions := db.listRunPlan planHash
    let (_, set) ← requireSome db.currentAuthorizationSet "terminal_cleanup_authorization_invalid"
      "terminal runtime cleanup lacks the exact released authorization set"
    require (set.status = .released ∧ set.planHash = planHash)
      "terminal_cleanup_authorization_invalid"
      "terminal runtime cleanup lacks the exact released authorization set"
    require (coversReleasedSet set writeSteps actions) "terminal_cleanup_action_set_invalid"
      "terminal runtime cleanup action rows do not cover the released WRITE set"
    match focalActionId with
    | none => return actions
    | some focal =>
        require (actions.any fun entry =>
            entry.1 = focal && entry.2.action.contract.stepId = failedStepId)
          "terminal_cleanup_focal_action_invalid"
          "terminal runtime cleanup lost its exact focal WRITE action"
        return actions

def cancelledEvent (actionId : String) (action : ExternalAction) (reasonCode : String)
    (occurredAt : Time) : AuditEvent :=
  .actionMutation .cancelled actionId (action.version + 1) (some reasonCode) occurredAt

/-- An executing sibling has no external call in flight. -/
def idleSibling (db : Database) (planHash : String) (controlVersion : Nat)
    (cancelledStepIds : List String) (stepId : String) (step : RunStep) : Except Rejection Bool :=
  if step.effect = .write then .ok (stepId ∈ cancelledStepIds)
  else if step.runtimePolicy.attemptKind = .noCall then .ok true
  else
    match db.executingReadDisposition planHash controlVersion stepId step with
    | .ok disposition => .ok (disposition = .retryBackoff)
    | .error _ =>
        reject "terminal_cleanup_attempt_lineage_invalid"
          "executing READ sibling lacks exact attempt lineage"

/-- The executing siblings that a cleanup fails. -/
def idleSiblings (db : Database) (planHash : String) (controlVersion : Nat)
    (cancelledStepIds : List String) :
    List (String × RunStep) → Except Rejection (List (String × RunStep)) :=
  selectWhere fun (stepId, step) =>
    idleSibling db planHash controlVersion cancelledStepIds stepId step

/-- Fail one step and its run and close only siblings with no external call in flight. -/
def failExecution (db : Database) (failedStepId planHash failureCode : String) (occurredAt : Time)
    (focalActionId : Option String) (siblingReasonCode : String)
    (origin : RunTerminalFailureOrigin) : Except Rejection (TerminalCleanup × Database) := do
  let run := db.run
  require (run.state = .executing) "terminal_cleanup_run_conflict"
    "terminal runtime cleanup requires the exact executing Run"
  let deniedStep ← requireSome (db.step? failedStepId) "terminal_cleanup_step_conflict"
    "terminal runtime cleanup lost the denied step"
  require (deniedStep.state ∈ [.ready, .executing]) "terminal_cleanup_step_conflict"
    "terminal runtime cleanup lost the denied step"
  let control ← requireSome db.control "terminal_cleanup_control_invalid"
    "terminal runtime cleanup lacks the exact sealed execution control"
  require (control.policyHash = planHash) "terminal_cleanup_control_invalid"
    "terminal runtime cleanup lacks the exact sealed execution control"
  let actions ← planActions db planHash failedStepId focalActionId
  let cancellable := actions.filter fun entry => some entry.1 ≠ focalActionId ∧
    preCall entry.2.action
  let cancelledDb ← cancelUnstarted planHash occurredAt siblingReasonCode
    "terminal_cleanup_action_conflict" "pre-call action changed before terminal cleanup committed"
    cancellable db
  let (denied, deniedDb) ← cancelledDb.advanceStep run failedStepId deniedStep .fail
    (.terminal failureCode) occurredAt "terminal_cleanup_step_conflict"
    "denied step changed before terminal cleanup committed"
  let idle ← idleSiblings deniedDb planHash control.version
    (cancellable.map fun entry => entry.2.action.contract.stepId)
    (db.stepsWhere fun stepId step => stepId ≠ failedStepId && step.state = .executing)
  let (failed, failedDb) ← advanceSteps run .fail (.terminal siblingReasonCode) occurredAt
    "terminal_cleanup_step_conflict"
    "non-call sibling step changed before terminal cleanup committed" idle deniedDb
  let (skipped, skippedDb) ← advanceSteps run .skip (.terminal siblingReasonCode) occurredAt
    "terminal_cleanup_step_conflict" "queued step changed before terminal cleanup committed"
    (db.stepsWhere fun stepId step =>
      stepId ≠ failedStepId && step.state ∈ [.pending, .ready, .awaitingApproval]) failedDb
  let (runResult, after) ← skippedDb.advanceRun .fail (.failure .execution failureCode) occurredAt
    "terminal_cleanup_run_conflict" "Run changed before terminal cleanup committed"
  return ({
      deniedStep := denied.step
      auditEvents := cancellable.map (fun entry =>
          cancelledEvent entry.1 entry.2.action siblingReasonCode occurredAt) ++
        stepEvents (denied :: failed ++ skipped) ++
        [.runTransition runResult.transition (some origin)] },
    after)

def failRuntimeControl (db : Database) (deniedStepId planHash denialCode : String)
    (occurredAt : Time) : Except Rejection (TerminalCleanup × Database) := do
  require (denialCode ∈ terminalRuntimeControlDenialCodes) "ValueError"
    "terminal cleanup requires a terminal runtime-control denial code"
  failExecution db deniedStepId planHash denialCode occurredAt none "runtime_control_denied"
    .runtimeControl

/-- The cleanup after an outcome that is not a runtime-control denial. -/
def failOrdinary (db : Database) (failedStepId planHash failureCode : String) (occurredAt : Time)
    (focalActionId : Option String) : Except Rejection (TerminalCleanup × Database) :=
  failExecution db failedStepId planHash failureCode occurredAt focalActionId "parent_run_failed"
    .ordinaryExecution

end TerminalExecutionCleanupService

end MarketingAgents
