import MarketingAgents.Domain.Approval
import MarketingAgents.Domain.Audit
import MarketingAgents.Domain.AuditTimeline
import MarketingAgents.Domain.ExternalAction
import MarketingAgents.Domain.Rejection

namespace MarketingAgents

/-! # The audit events of an external action

The factory builds the event of a mutation from the row before it and the row
after it, and refuses a pair of rows that is not the mutation it names.
-/

def IdempotencySupport.value : IdempotencySupport → String
  | required => "required"
  | supported => "supported"
  | unavailable => "unavailable"

/-- The records that an event of an action points at. -/
structure ActionAuditLinks where
  actionAttemptNumber : Option Nat := none
  approvalRequestId : Option String := none
  approvalDecisionId : Option String := none
  receiptId : Option String := none
deriving DecidableEq

/-- An event about one external action, with the mutation that it witnesses. -/
structure ActionAudit where
  eventType : AuditEventType
  actionId : String
  stepId : String
  links : ActionAuditLinks
  mutationVersion : Nat
  previousState : Option ExternalActionState
  newState : ExternalActionState
  reasonCode : Option String
  occurredAt : Time
  safeMetadata : List (String × String)
deriving DecidableEq

def safeAuditReasons : List String :=
  ["authorization_mismatch", "approval_barrier_incomplete", "approval_barrier_satisfied",
    "approval_barrier_released", "approval_consumed", "approval_expired", "approval_granted",
    "approval_renewed", "approval_rejected", "approval_requested", "approval_set_rejected",
    "approval_set_superseded", "approval_rejection_mismatch", "binding_mismatch",
    "capability_mismatch", "connector_delivery_uncertain", "connector_request_rejected",
    "connector_timeout", "execution_completed", "execution_incomplete", "failure_phase_mismatch",
    "input_validated", "idempotency_conflict", "invalid_request", "schema_rejected",
    "webhook_authentication_failed", "invalid_cancellation_effects", "invalid_transition",
    "non_monotonic_time", "operator_cancelled", "operation_disabled", "parent_run_failed",
    "parent_run_failed_after_call_start", "plan_recorded", "plan_step_recorded",
    "pre_call_attempts_exhausted", "read_only_plan_released", "reserved_write_started",
    "run_cancelled", "run_cancelled_after_call_start", "runtime_control_denied",
    "runtime_control_denied_after_call_start", "schema_invalid_response", "schema_mismatch",
    "sibling_approval_rejected", "stale_delivery_outcome_unknown", "stale_run_version",
    "step_approval_required", "step_dependencies_satisfied", "step_execution_started",
    "step_succeeded", "terminal_state_immutable", "unclassified_failure", "work_admitted",
    "write_plan_requires_approval"]

/-- Map arbitrary reason strings to a bounded safe code. -/
def normalizeAuditReasonCode (value : String) : String :=
  if value ∈ runtimeControlDenialCodes ++ safeAuditReasons then value else "unclassified_failure"

/-- Every immutable fact of an action is the same. -/
def sameActionDefinition (left right : ExternalAction) : Bool :=
  left.contract = right.contract && left.createdAt = right.createdAt

/-- The row carries no trace of a dispatch. -/
def ExternalActionRow.undispatched (row : ExternalActionRow) : Bool :=
  row.reservation = none && row.deliveryAttemptCount = 0 && row.lease = none && row.call = none

/-- The row has neither a result nor a terminal reason, and nothing supersedes it. -/
def ExternalActionRow.unconcluded (row : ExternalActionRow) : Bool :=
  row.result = none && row.terminalReasonCode = none && row.supersession = none

namespace AuditEventFactory

variable (actionId : String) (previous : ExternalAction)

def idempotencyMetadata (action : ExternalAction) : String × String :=
  ("idempotency_support", action.contract.idempotencySupport.value)

/-- The event of one mutation, refused unless the second row is the next version of the first. -/
def actionMutation (eventType : AuditEventType) (now : ExternalAction)
    (fits : Prop) [Decidable fits]
    (message : String) (links : ActionAuditLinks) (reasonCode : Option String)
    (metadata : List (String × String)) : Except Rejection ActionAudit := do
  require (sameActionDefinition previous now ∧ now.version = previous.version + 1 ∧
    fits) "ValueError" message
  return {
    eventType
    actionId
    stepId := now.contract.stepId
    links
    mutationVersion := now.version
    previousState := some previous.state
    newState := now.state
    reasonCode
    occurredAt := now.updatedAt
    safeMetadata := idempotencyMetadata now :: metadata }

def actionProposed (action : ExternalAction) : Except Rejection ActionAudit := do
  require (action.state = .proposed ∧ action.version = 1 ∧ action.updatedAt = action.createdAt ∧
      action.reservation = none ∧ action.deliveryAttemptCount = 0) "ValueError"
    "proposed-action audit requires the pristine exact action"
  return {
    eventType := .actionProposed
    actionId
    stepId := action.contract.stepId
    links := {}
    mutationVersion := 1
    previousState := none
    newState := .proposed
    reasonCode := none
    occurredAt := action.createdAt
    safeMetadata := [idempotencyMetadata action] }

/-- The previous state is told apart from the row, and only bounds its version. -/
def actionAwaitingApproval (action : ExternalAction) (previousState : ExternalActionState) :
    Except Rejection ActionAudit := do
  require (previousState ∈ [.proposed, .approved] ∧ action.state = .awaitingApproval ∧
      1 < action.version ∧ action.reservation = none ∧
      (previousState = .proposed → action.version = 2) ∧
      (previousState = .approved → 4 ≤ action.version ∧ action.version % 2 = 0)) "ValueError"
    "approval-wait audit requires the exact action transition"
  return {
    eventType := .actionAwaitingApproval
    actionId
    stepId := action.contract.stepId
    links := {}
    mutationVersion := action.version
    previousState := some previousState
    newState := .awaitingApproval
    reasonCode := some (if previousState = .proposed then "approval_requested"
      else "approval_expired")
    occurredAt := action.updatedAt
    safeMetadata := [idempotencyMetadata action] }

def actionDecided (decided : ExternalAction) (requestId : String) (approval : ApprovalRequest) :
    Except Rejection ActionAudit := do
  let decisionId ← requireSome approval.decisionId "ValueError"
    "action decision audit requires the append-only decision"
  let approved := approval.status = .approved
  actionMutation actionId previous (if approved then .actionApproved else .actionRejected) decided
    (previous.state = .awaitingApproval ∧
      decided.state = (if approved then .approved else .rejected) ∧ 3 ≤ decided.version ∧
      decided.version % 2 = 1 ∧ decided.updatedAt = approval.updatedAt ∧ decided.undispatched ∧
      decided.result = none ∧ decided.supersession = none ∧
      decided.terminalReasonCode = (if approved then none else some "approval_rejected") ∧
      approval.actionId = actionId ∧ approval.actionHash = decided.contract.actionHash ∧
      approval.status ∈ [.approved, .rejected] ∧ approval.version = 2)
    "action decision audit requires its exact authorized transition"
    { approvalRequestId := some requestId, approvalDecisionId := some decisionId }
    (some (if approved then "approval_granted" else "approval_rejected")) []

/-- Witness one exact approved action becoming dispatch-reserved at set release. -/
def actionDispatchReserved (reserved : ExternalAction) (requestId : String)
    (consumed : ApprovalRequest)
    (useId : String) (use : ApprovalUse) : Except Rejection ActionAudit := do
  let reservation ← requireSome reserved.reservation "ValueError"
    "dispatch-reserved audit requires one exact consumed approval leaf"
  actionMutation actionId previous .actionDispatchReserved reserved
    (previous.state = .approved ∧ reserved.state = .dispatchReserved ∧
      previous.updatedAt ≤ reserved.updatedAt ∧ previous.undispatched ∧ previous.unconcluded ∧
      reserved.deliveryAttemptCount = 0 ∧ reserved.lease = none ∧ reserved.call = none ∧
      reserved.unconcluded ∧ consumed.status = .consumed ∧ consumed.version = 3 ∧
      consumed.decisionId = some reservation.approvalDecisionId ∧ consumed.actionId = actionId ∧
      consumed.actionHash = reserved.contract.actionHash ∧ consumed.updatedAt = reserved.updatedAt ∧
      use.usedAt = reserved.updatedAt ∧ reservation.reservedAt = reserved.updatedAt ∧
      reservation.approvalRequestId = requestId ∧ reservation.reservationId = use.reservationId)
    "dispatch-reserved audit requires one exact consumed approval leaf"
    { approvalRequestId := some requestId
      approvalDecisionId := some reservation.approvalDecisionId }
    (some "approval_consumed")
    [("approval_use_id", useId), ("approval_set_id", reservation.authorizationSetId),
      ("reservation_id", reservation.reservationId)]

/-- The reasons that a terminal approval may close its action with. -/
def cancelReasons (status : ApprovalStatus) (supersessionReason : String) : List String :=
  if status = .superseded then
    if supersessionReason = "approval_set_rejected" then ["sibling_approval_rejected"]
    else if supersessionReason = "run_cancelled" then ["operator_cancelled"]
    else []
  else ["operator_cancelled", "sibling_approval_rejected"]

/-- Witness one non-dispatched action closed against its exact terminal approval. -/
def actionCancelled (cancelled : ExternalAction) (requestId : String) (terminal : ApprovalRequest)
    (supersessionReason : String) : Except Rejection ActionAudit := do
  let reason ← requireSome cancelled.terminalReasonCode "ValueError"
    "action-cancelled audit requires one exact terminal approval"
  actionMutation actionId previous .actionCancelled cancelled
    (terminal.status ∈ [.superseded, .expired] ∧
      previous.state = (if terminal.status = .superseded ∧ terminal.decisionId ≠ none then .approved
        else .awaitingApproval) ∧
      cancelled.state = .cancelled ∧ previous.updatedAt ≤ cancelled.updatedAt ∧
      reason ∈ ["operator_cancelled", "sibling_approval_rejected"] ∧ previous.undispatched ∧
      cancelled.undispatched ∧ previous.unconcluded ∧ cancelled.result = none ∧
      cancelled.supersession = none ∧ terminal.actionId = actionId ∧
      terminal.actionHash = cancelled.contract.actionHash ∧
      (terminal.status = .superseded → terminal.updatedAt = cancelled.updatedAt) ∧
      (terminal.status = .expired → terminal.updatedAt ≤ cancelled.updatedAt) ∧
      reason ∈ cancelReasons terminal.status supersessionReason)
    "action-cancelled audit requires one exact terminal approval"
    { approvalRequestId := some requestId, approvalDecisionId := terminal.decisionId } (some reason)
    [("approval_set_id", terminal.authorizationSetId), ("approval_status", terminal.status.value),
      ("closure_reason", reason)]

/-- Witness released queued or claimed-before-call work cancelled by its run. -/
def actionRuntimeCancelled (cancelled : ExternalAction) : Except Rejection ActionAudit := do
  let reservation ← requireSome previous.reservation "ValueError"
    "runtime action cancellation requires exact pre-call released work"
  let reason ← requireSome cancelled.terminalReasonCode "ValueError"
    "runtime action cancellation requires exact pre-call released work"
  actionMutation actionId previous .actionCancelled cancelled
    (previous.state ∈ [.dispatchReserved, .dispatching] ∧ previous.call = none ∧
      cancelled.state = .cancelled ∧ previous.updatedAt ≤ cancelled.updatedAt ∧
      cancelled.reservation = previous.reservation ∧
      cancelled.deliveryAttemptCount = previous.deliveryAttemptCount ∧ cancelled.lease = none ∧
      cancelled.call = none ∧ cancelled.result = none ∧
      reason ∈ ["operator_cancelled", "parent_run_failed", "runtime_control_denied"] ∧
      previous.unconcluded ∧ cancelled.supersession = none ∧
      (previous.state = .dispatchReserved → previous.lease = none) ∧
      (previous.state = .dispatching →
        previous.lease.map (·.attemptNumber) = some previous.deliveryAttemptCount))
    "runtime action cancellation requires exact pre-call released work"
    { actionAttemptNumber :=
        if previous.state = .dispatching then some previous.deliveryAttemptCount else none
      approvalRequestId := some reservation.approvalRequestId
      approvalDecisionId := some reservation.approvalDecisionId }
    (some reason)
    [("approval_set_id", reservation.authorizationSetId), ("approval_status", "released"),
      ("closure_reason", reason)]

/-- Witness one durable dispatch lease acquisition before call start. -/
def actionDispatchClaimed (claimed : ExternalAction) : Except Rejection ActionAudit := do
  let lease ← requireSome claimed.lease "ValueError"
    "dispatch-claimed audit requires one exact lease acquisition"
  actionMutation actionId previous .actionDispatchClaimed claimed
    (previous.state = .dispatchReserved ∧ claimed.state = .dispatching ∧
      claimed.updatedAt = lease.claimedAt ∧ previous.reservation ≠ none ∧
      claimed.reservation = previous.reservation ∧
      previous.deliveryAttemptCount + 1 = claimed.deliveryAttemptCount ∧
      claimed.deliveryAttemptCount = lease.attemptNumber ∧ previous.lease = none ∧
      previous.call = none ∧ claimed.call = none ∧ previous.unconcluded ∧ claimed.unconcluded)
    "dispatch-claimed audit requires one exact lease acquisition"
    { actionAttemptNumber := some lease.attemptNumber } none []

/-- Witness the committed pre-call marker for one exact claimed attempt. -/
def actionCallStarted (marked : ExternalAction) : Except Rejection ActionAudit := do
  let lease ← requireSome marked.lease "ValueError"
    "call-started audit requires one exact open dispatch attempt"
  let call ← requireSome marked.call "ValueError"
    "call-started audit requires one exact open dispatch attempt"
  actionMutation actionId previous .actionCallStarted marked
    (previous.state = .dispatching ∧ marked.state = .dispatching ∧ marked.lease = previous.lease ∧
      marked.reservation = previous.reservation ∧
      marked.deliveryAttemptCount = previous.deliveryAttemptCount ∧ previous.call = none ∧
      marked.updatedAt = call.startedAt ∧ lease.claimedAt ≤ call.startedAt ∧
      call.startedAt < lease.expiresAt ∧ call.startedAt < call.deadlineAt ∧ previous.unconcluded ∧
      marked.unconcluded)
    "call-started audit requires one exact open dispatch attempt"
    { actionAttemptNumber := some lease.attemptNumber } none []

/-- What every conclusion of a dispatch attempt leaves of its action. -/
def concludes (now : ExternalAction) (state : ExternalActionState) : Bool :=
  previous.state = .dispatching && now.state = state && now.reservation = previous.reservation &&
    now.deliveryAttemptCount = previous.deliveryAttemptCount && now.lease = none &&
      now.call = none &&
    previous.unconcluded && now.supersession = none

/-- A success, recorded from an answer in time or from a receipt that outlived its call. -/
def actionSuccess (eventType : AuditEventType) (conclusion message : String)
    (timely : CallAuthority → Time → Bool) (succeeded : ExternalAction) :
    Except Rejection ActionAudit := do
  let lease ← requireSome previous.lease "ValueError" message
  let call ← requireSome previous.call "ValueError" message
  let result ← requireSome succeeded.result "ValueError" message
  actionMutation actionId previous eventType succeeded
    (concludes previous succeeded .succeeded ∧ succeeded.updatedAt = result.completedAt ∧
      timely call succeeded.updatedAt ∧ succeeded.terminalReasonCode = none)
    message
    { actionAttemptNumber := some lease.attemptNumber, receiptId := some result.receiptId } none
    [("conclusion", conclusion), ("connector_status", result.status)]

/-- Witness one timely provider response backed by its exact durable receipt. -/
def actionSucceeded : ExternalAction → Except Rejection ActionAudit :=
  actionSuccess actionId previous .actionSucceeded "succeeded"
    "action-succeeded audit requires one exact timely conclusion"
    fun call completedAt => call.startedAt ≤ completedAt && completedAt < call.deadlineAt

/-- Witness a call-started action completed from exact durable receipt evidence. -/
def actionReceiptReconciled : ExternalAction → Except Rejection ActionAudit :=
  actionSuccess actionId previous .actionReceiptReconciled "receipt_reconciled"
    "receipt-reconciled audit requires one exact durable conclusion"
    fun call completedAt => call.deadlineAt ≤ completedAt

/-- A failure follows a started call, or it exhausts a lease that started none. -/
def failureFits (call : Option CallAuthority) (lease : DispatchLease) (reason : String)
    (failedAt : Time) :
    Bool :=
  match call with
  | some call => call.startedAt ≤ failedAt
  | none => reason = "pre_call_attempts_exhausted" && lease.expiresAt ≤ failedAt

/-- Witness one action closed by a known provider failure or an exhausted lease. -/
def actionFailed (failed : ExternalAction) : Except Rejection ActionAudit := do
  let lease ← requireSome previous.lease "ValueError"
    "action-failed audit requires one exact known conclusion"
  let reason ← requireSome failed.terminalReasonCode "ValueError"
    "action-failed audit requires one exact known conclusion"
  actionMutation actionId previous .actionFailed failed
    (concludes previous failed .failed ∧ failed.result = none ∧
      failureFits previous.call lease reason failed.updatedAt)
    "action-failed audit requires one exact known conclusion"
    { actionAttemptNumber := some lease.attemptNumber }
    (some (normalizeAuditReasonCode reason)) [("conclusion", "failed")]

def outcomeUnknownReasons : List String :=
  ["connector_delivery_uncertain", "connector_timeout", "parent_run_failed_after_call_start",
    "run_cancelled_after_call_start", "runtime_control_denied_after_call_start",
    "stale_delivery_outcome_unknown"]

/-- Witness one call-started action closed without authoritative provider evidence. -/
def actionOutcomeUnknown (unknown : ExternalAction) : Except Rejection ActionAudit := do
  let lease ← requireSome previous.lease "ValueError"
    "outcome-unknown audit requires one exact call-started conclusion"
  let call ← requireSome previous.call "ValueError"
    "outcome-unknown audit requires one exact call-started conclusion"
  let reason ← requireSome unknown.terminalReasonCode "ValueError"
    "outcome-unknown audit requires one exact call-started conclusion"
  actionMutation actionId previous .actionOutcomeUnknown unknown
    (concludes previous unknown .outcomeUnknown ∧ call.startedAt ≤ unknown.updatedAt ∧
      unknown.result = none ∧ reason ∈ outcomeUnknownReasons)
    "outcome-unknown audit requires one exact call-started conclusion"
    { actionAttemptNumber := some lease.attemptNumber } (some reason)
    [("conclusion", "outcome_unknown")]

/-- An event names one mutation of an action: the state before it and the row it left. -/
structure Witnesses (now : ExternalAction) (event : ActionAudit) : Prop where
  action : event.actionId = actionId
  version : event.mutationVersion = now.version
  successor : now.version = previous.version + 1
  previousState : event.previousState = some previous.state
  newState : event.newState = now.state

section

variable {actionId : String} {previous now : ExternalAction} {event : ActionAudit}

theorem actionMutation_witnesses {eventType : AuditEventType} {fits : Prop} [Decidable fits]
    (built : actionMutation actionId previous eventType now fits message links reasonCode metadata =
      .ok event) : Witnesses actionId previous now event := by
  simp only [actionMutation, bind_ok, require_ok, pure_ok] at built
  obtain ⟨_, ⟨_, successor, _⟩, rfl⟩ := built
  exact ⟨rfl, rfl, successor, rfl, rfl⟩

theorem actionAwaitingApproval_witnesses
    (built : actionAwaitingApproval actionId now previousState = .ok event)
    (successor : now.version = previous.version + 1) (state : previous.state = previousState) :
    Witnesses actionId previous now event := by
  simp only [actionAwaitingApproval, bind_ok, require_ok, pure_ok] at built
  obtain ⟨_, ⟨_, waiting, _⟩, rfl⟩ := built
  exact ⟨rfl, rfl, successor, by rw [state], waiting.symm⟩

theorem actionDecided_witnesses
    (built : actionDecided actionId previous now requestId approval = .ok event) :
    Witnesses actionId previous now event := by
  simp only [actionDecided, bind_ok] at built
  obtain ⟨_, _, built⟩ := built
  exact actionMutation_witnesses built

theorem actionDispatchReserved_witnesses
    (built : actionDispatchReserved actionId previous now requestId consumed useId use =
      .ok event) :
    Witnesses actionId previous now event := by
  simp only [actionDispatchReserved, bind_ok] at built
  obtain ⟨_, _, built⟩ := built
  exact actionMutation_witnesses built

theorem actionCancelled_witnesses
    (built : actionCancelled actionId previous now requestId terminal supersessionReason =
      .ok event) :
    Witnesses actionId previous now event := by
  simp only [actionCancelled, bind_ok] at built
  obtain ⟨_, _, built⟩ := built
  exact actionMutation_witnesses built

theorem actionRuntimeCancelled_witnesses
    (built : actionRuntimeCancelled actionId previous now = .ok event) :
    Witnesses actionId previous now event := by
  simp only [actionRuntimeCancelled, bind_ok] at built
  obtain ⟨_, _, _, _, built⟩ := built
  exact actionMutation_witnesses built

theorem actionDispatchClaimed_witnesses
    (built : actionDispatchClaimed actionId previous now = .ok event) :
    Witnesses actionId previous now event := by
  simp only [actionDispatchClaimed, bind_ok] at built
  obtain ⟨_, _, built⟩ := built
  exact actionMutation_witnesses built

theorem actionCallStarted_witnesses (built : actionCallStarted actionId previous now = .ok event) :
    Witnesses actionId previous now event := by
  simp only [actionCallStarted, bind_ok] at built
  obtain ⟨_, _, _, _, built⟩ := built
  exact actionMutation_witnesses built

theorem actionSuccess_witnesses {eventType : AuditEventType} {timely : CallAuthority → Time → Bool}
    (built : actionSuccess actionId previous eventType conclusion message timely now = .ok event) :
    Witnesses actionId previous now event := by
  simp only [actionSuccess, bind_ok] at built
  obtain ⟨_, _, _, _, _, _, built⟩ := built
  exact actionMutation_witnesses built

theorem actionFailed_witnesses (built : actionFailed actionId previous now = .ok event) :
    Witnesses actionId previous now event := by
  simp only [actionFailed, bind_ok] at built
  obtain ⟨_, _, _, _, built⟩ := built
  exact actionMutation_witnesses built

theorem actionOutcomeUnknown_witnesses
    (built : actionOutcomeUnknown actionId previous now = .ok event) :
    Witnesses actionId previous now event := by
  simp only [actionOutcomeUnknown, bind_ok] at built
  obtain ⟨_, _, _, _, _, _, built⟩ := built
  exact actionMutation_witnesses built

end

end AuditEventFactory

end MarketingAgents
