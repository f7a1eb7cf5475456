import MarketingAgents.Domain.ExecutionControl
import MarketingAgents.Domain.RunLifecycle
import MarketingAgents.Domain.StepLifecycle

namespace MarketingAgents

/-- Who acts and under which correlation, as every audit event records it. -/
structure AuditContext where
  actorId : String
  correlationId : String
deriving DecidableEq

inductive RunTerminalFailureOrigin where
  | ordinaryExecution
  | runtimeControl
deriving DecidableEq, Repr

inductive ActionEventType where
  | dispatchReserved
  | dispatchClaimed
  | callStarted
  | succeeded
  | receiptReconciled
  | failed
  | outcomeUnknown
  | cancelled
deriving DecidableEq, Repr

/-- The identity of a denial witness, which a repeated denial does not duplicate. -/
structure RuntimeControlDenial where
  context : AuditContext
  stepId : String
  actionId : Option String
  operationKey : String
  denialCode : String
deriving DecidableEq

inductive AuditEvent where
  | runTransition (transition : RunStateTransition)
      (terminalFailureOrigin : Option RunTerminalFailureOrigin)
  | stepTransition (transition : StepStateTransition)
  | actionMutation (type : ActionEventType) (actionId : String) (mutationVersion : Nat)
      (reasonCode : Option String) (occurredAt : Time)
  | attemptReserved (attemptId stepId : String) (attemptNumber : Nat) (occurredAt : Time)
  | attemptCompleted (attemptId stepId : String) (completion : AttemptCompletion)
  | runtimeControlDenied (denial : RuntimeControlDenial) (retryAfterSeconds : Option Nat)
      (occurredAt : Time)
deriving DecidableEq

def runtimeControlDenialCodes : List String :=
  ["adapter_contract_drift", "adapter_contract_invalid", "adapter_contract_unavailable",
    "attempt_completion_conflict", "attempt_completion_time_invalid", "attempt_id_conflict",
    "attempt_in_progress", "attempt_missing", "attempt_not_retryable",
    "attempt_reservation_conflict", "attempt_time_invalid", "attempts_exhausted",
    "cancellation_conflict", "cancellation_time_invalid", "cancelled", "deadline_exceeded",
    "delivery_action_fence_invalid", "delivery_contract_drift", "delivery_contract_invalid",
    "delivery_contract_unavailable", "delivery_reservation_conflict",
    "delivery_step_fence_invalid", "delivery_time_invalid", "dry_run_external_effect_forbidden",
    "execution_control_integrity_corrupt", "execution_control_missing", "execution_not_started",
    "execution_plan_missing", "execution_policy_binding_invalid", "execution_policy_conflict",
    "execution_policy_source_corrupt", "execution_policy_time_invalid", "execution_run_missing",
    "execution_start_conflict", "execution_start_time_invalid", "input_field_too_large",
    "input_payload_too_large", "input_schema_invalid", "model_budget_exhausted",
    "model_output_tokens_exceeded", "model_output_tokens_invalid", "operation_policy_missing",
    "output_payload_too_large", "output_schema_invalid", "permanent_failure",
    "rate_limit_conflict", "rate_limit_exhausted", "retry_deadline_exceeded", "retry_not_ready",
    "run_cancelled", "run_not_executing", "stale_execution_control", "step_fence_invalid",
    "tool_budget_exhausted"]

/-- The denials that no later call of the same run can overcome. -/
def terminalRuntimeControlDenialCodes : List String :=
  ["adapter_contract_drift", "adapter_contract_invalid", "adapter_contract_unavailable",
    "attempts_exhausted", "deadline_exceeded", "delivery_contract_drift",
    "delivery_contract_invalid", "delivery_contract_unavailable",
    "dry_run_external_effect_forbidden", "input_field_too_large", "input_payload_too_large",
    "input_schema_invalid", "model_budget_exhausted", "model_output_tokens_exceeded",
    "model_output_tokens_invalid", "output_payload_too_large", "output_schema_invalid",
    "retry_deadline_exceeded", "tool_budget_exhausted"]

end MarketingAgents
