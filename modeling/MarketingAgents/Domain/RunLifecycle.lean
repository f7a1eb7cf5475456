import MarketingAgents.Domain.Rejection
import MarketingAgents.Domain.Enums

namespace MarketingAgents

inductive RunLifecycleCommand where
  | receive
  | markValidated
  | recordPlan
  | activatePlan
  | releaseApprovedPlan
  | rejectApproval
  | complete
  | fail
  | cancel
deriving DecidableEq, Repr

inductive RunFailurePhase where
  | validation
  | planning
  | approvalProcessing
  | execution
deriving DecidableEq, Repr

inductive RunTransitionContext where
  | none
  | planDisposition (containsWriteActions : Bool)
  | approvalBarrier (required current approved : List String)
      (expiresAtByHash : List (String × Time))
  | approvalRejection (required rejected : List String)
  | completion (totalStepCount succeededStepCount failedStepCount unfinishedStepCount : Nat)
  | failure (phase : RunFailurePhase) (failureCode : String)
  | cancellation (reasonCode : String) (completedEffectCount outcomeUnknownEffectCount : Nat)
deriving DecidableEq

structure RunStateTransition where
  sequence : Nat
  command : RunLifecycleCommand
  previousState : Option RunState
  newState : RunState
  reasonCode : String
  occurredAt : Time
  expectedVersion : Nat
  resultingVersion : Nat
  completedEffectCount : Nat
  outcomeUnknownEffectCount : Nat
deriving DecidableEq

structure Run where
  state : RunState
  version : Nat
  createdAt : Time
  updatedAt : Time
  approvalRequired : Option Bool
  terminalReasonCode : Option String
deriving DecidableEq

structure RunTransitionResult where
  run : Run
  transition : RunStateTransition
deriving DecidableEq

/-- Two collections of hashes with the same members. -/
def sameMembers (left right : List String) : Bool :=
  left.all (· ∈ right) && right.all (· ∈ left)

/-- The failure phase that belongs to each processing state. -/
def allowedFailurePhase : RunState → Option RunFailurePhase
  | .received => some .validation
  | .validated => some .planning
  | .planned => some .planning
  | .awaitingApproval => some .approvalProcessing
  | .executing => some .execution
  | .completed | .failed | .rejected | .cancelled => none

/-- The state, reason and approval disposition a legal command leads to. -/
def nextRunState (run : Run) (command : RunLifecycleCommand) (context : RunTransitionContext)
    (occurredAt : Time) : Except Rejection (RunState × String × Option Bool) :=
  match command, context with
  | .markValidated, .none =>
      if run.state = .received then .ok (.validated, "input_validated", run.approvalRequired)
      else reject "invalid_transition" "run cannot validate"
  | .recordPlan, .planDisposition containsWriteActions =>
      if run.state = .validated then .ok (.planned, "plan_recorded", some containsWriteActions)
      else reject "invalid_transition" "run cannot plan"
  | .activatePlan, .none =>
      if run.state = .planned then
        if run.approvalRequired = some true then
          .ok (.awaitingApproval, "write_plan_requires_approval", run.approvalRequired)
        else .ok (.executing, "read_only_plan_released", run.approvalRequired)
      else reject "invalid_transition" "plan cannot activate"
  | .releaseApprovedPlan, .approvalBarrier required current approved expiresAtByHash =>
      if run.state = .awaitingApproval then
        if sameMembers required current ∧ sameMembers required approved ∧
            sameMembers required (expiresAtByHash.map Prod.fst) ∧
            ∀ expiry ∈ expiresAtByHash, occurredAt < expiry.2 then
          .ok (.executing, "approval_barrier_satisfied", run.approvalRequired)
        else reject "approval_barrier_incomplete"
          "complete current exact-action approvals are required"
      else reject "invalid_transition" "approval cannot release"
  | .rejectApproval, .approvalRejection required rejected =>
      if run.state = .awaitingApproval then
        if ∀ hash ∈ rejected, hash ∈ required then
          .ok (.rejected, "approval_rejected", run.approvalRequired)
        else reject "approval_rejection_mismatch" "rejected action must belong to the required set"
      else reject "invalid_transition" "approval cannot reject"
  | .complete, .completion _ _ failedStepCount unfinishedStepCount =>
      if run.state = .executing then
        if failedStepCount = 0 ∧ unfinishedStepCount = 0 then
          .ok (.completed, "execution_completed", run.approvalRequired)
        else reject "execution_incomplete" "all required steps must succeed before completion"
      else reject "invalid_transition" "run cannot complete"
  | .fail, .failure phase failureCode =>
      if allowedFailurePhase run.state = some phase then
        .ok (.failed, failureCode, run.approvalRequired)
      else reject "failure_phase_mismatch" "failure phase does not match current processing state"
  | .cancel, .cancellation reasonCode completedEffectCount outcomeUnknownEffectCount =>
      if run.state ≠ .executing ∧ (completedEffectCount ≠ 0 ∨ outcomeUnknownEffectCount ≠ 0) then
        reject "invalid_cancellation_effects"
          "pre-execution cancellation cannot report external effects"
      else .ok (.cancelled, reasonCode, run.approvalRequired)
  | .markValidated, _ => reject "invalid_transition" "run cannot validate"
  | .recordPlan, _ => reject "invalid_transition" "run cannot plan"
  | .activatePlan, _ => reject "invalid_transition" "plan cannot activate"
  | .releaseApprovedPlan, _ => reject "invalid_transition" "approval cannot release"
  | .rejectApproval, _ => reject "invalid_transition" "approval cannot reject"
  | .complete, _ => reject "invalid_transition" "run cannot complete"
  | .fail, _ => reject "invalid_transition" "failure context invalid"
  | .cancel, _ => reject "invalid_transition" "cancellation context invalid"
  | .receive, _ => reject "invalid_transition" "command is not public"

def RunTransitionContext.effectCounts : RunTransitionContext → Nat × Nat
  | .cancellation _ completedEffectCount outcomeUnknownEffectCount =>
      (completedEffectCount, outcomeUnknownEffectCount)
  | _ => (0, 0)

/-- Apply one legal command; callers cannot nominate an arbitrary target state. -/
def transitionRun (run : Run) (command : RunLifecycleCommand) (context : RunTransitionContext)
    (occurredAt : Time) : Except Rejection RunTransitionResult := do
  require (run.updatedAt ≤ occurredAt) "non_monotonic_time" "transition time is stale"
  require (run.state.terminal = false) "terminal_state_immutable" "terminal run state is immutable"
  let (newState, reasonCode, approvalRequired) ← nextRunState run command context occurredAt
  return {
    run := { run with
      state := newState
      updatedAt := occurredAt
      version := run.version + 1
      approvalRequired
      terminalReasonCode := if newState.terminal then some reasonCode else none }
    transition := {
      sequence := run.version + 1
      command
      previousState := some run.state
      newState
      reasonCode
      occurredAt
      expectedVersion := run.version
      resultingVersion := run.version + 1
      completedEffectCount := context.effectCounts.1
      outcomeUnknownEffectCount := context.effectCounts.2 } }

end MarketingAgents
