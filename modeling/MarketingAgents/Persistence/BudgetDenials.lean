import MarketingAgents.Persistence.ExecutionControlEffects

namespace MarketingAgents

open Library

/-! # When a reservation is denied for its budget -/

def budgetDenials : List String := ["model_budget_exhausted", "tool_budget_exhausted"]

namespace RunExecutionControl

variable (control : RunExecutionControl)

def calls : AttemptKind → Nat
  | .model => control.modelCalls
  | .tool => control.toolCalls
  | .noCall => 0

def maxCalls : AttemptKind → Nat
  | .model => control.maxModelCalls
  | .tool => control.maxToolCalls
  | .noCall => 0

end RunExecutionControl

namespace Database

variable {db : Database} {control : RunExecutionControl} {rejection : Rejection}

theorem chargeLogicalCall_error {first : Bool}
    (denied : chargeLogicalCall first control kind = .error rejection) :
    first ∧ kind ≠ .noCall ∧ control.maxCalls kind ≤ control.calls kind := by
  cases first with
  | false => cases denied
  | true =>
      simp only [chargeLogicalCall, if_true, chargeBudget] at denied
      cases kind with
      | model =>
          simp only [bind_error, require_error, pure_error, and_false, exists_false,
            or_false] at denied
          exact ⟨rfl, by simp, Nat.le_of_not_lt denied.1⟩
      | tool =>
          simp only [bind_error, require_error, pure_error, and_false, exists_false,
            or_false] at denied
          exact ⟨rfl, by simp, Nat.le_of_not_lt denied.1⟩
      | noCall => cases denied

theorem activeControl_error {expectedControlVersion : Nat} {reservedAt : Time}
    (denied : db.activeControl expectedControlVersion reservedAt staleCode staleMessage =
      .error rejection) :
    rejection.code ∈ ["execution_control_missing", "run_cancelled", "execution_not_started",
      "deadline_exceeded", "stale_execution_control", staleCode] := by
  simp only [activeControl, requireControl, bind_error, require_error, requireSome_error,
    pure_error, and_false, exists_false, or_false] at denied
  rcases denied with ⟨_, rfl⟩ |
    ⟨_, _, ⟨_, rfl⟩ | ⟨_, _, ⟨_, rfl⟩ | ⟨_, _, ⟨_, rfl⟩ | ⟨_, _, ⟨_, rfl⟩ |
    ⟨_, _, ⟨_, rfl⟩⟩⟩⟩⟩⟩ <;> simp

theorem chargeRateWindow_error {reservedAt : Time}
    (denied : db.chargeRateWindow policy reservedAt corrupt exhausted = .error rejection) :
    rejection.code ∈ [controlCorrupt, "rate_limit_exhausted"] := by
  simp only [chargeRateWindow] at denied
  split at denied
  · cases denied
  · simp only [bind_error, require_error] at denied
    rcases denied with ⟨_, rfl⟩ | ⟨_, _, denied⟩
    · simp
    · split at denied
      · cases denied
        simp
      · cases denied

theorem attemptSchema_error (denied : attemptSchema command policy = .error rejection) :
    rejection.code = "execution_policy_conflict" := by
  simp only [attemptSchema, bind_error, require_error, requireSome_error, pure_error, and_false,
    exists_false, or_false] at denied
  rcases denied with ⟨_, rfl⟩ | ⟨_, _, ⟨_, rfl⟩ | ⟨_, _, ⟨_, rfl⟩⟩⟩ <;> rfl

theorem reservationReplay_error
    (denied : db.reservationReplay command stepId attempt = .error rejection) :
    rejection.code ∈ ["attempt_id_conflict", controlCorrupt] := by
  simp only [reservationReplay, bind_error, require_error, requireSome_error, pure_error, and_false,
    exists_false, or_false] at denied
  rcases denied with ⟨_, rfl⟩ | ⟨_, _, ⟨_, rfl⟩ | ⟨_, _, ⟨_, rfl⟩ | ⟨_, _, ⟨_, rfl⟩ |
    ⟨_, _, ⟨_, rfl⟩⟩⟩⟩⟩ <;> simp

theorem nextAttempt_error {reservedAt : Time}
    (denied : nextAttempt attempts reservedAt = .error rejection) :
    rejection.code ∈ ["attempt_in_progress", "attempt_not_retryable", "retry_not_ready"] ∨
      ∃ attempt ∈ attempts, attempt.terminalReasonCode = some rejection.code := by
  unfold nextAttempt at denied
  split at denied
  · cases denied
  · rename_i previous last
    split at denied
    · cases denied
      simp
    · rename_i completion completed
      split at denied
      · cases denied
        cases reason : completion.terminalReasonCode with
        | none => simp
        | some code => exact .inr ⟨previous, List.mem_of_getLast? last, by
            simp [ExecutionAttempt.terminalReasonCode, completed, reason]⟩
      · split at denied
        · cases denied
          simp
        · cases denied

/-- A reservation that is denied for its budget was the first of its operation. -/
theorem reserveAttempt_denied (denied : db.reserveAttempt command = .error rejection)
    (exhausted : rejection.code ∈ budgetDenials)
    (reasons : ∀ stepId operation, db.operations.get? stepId = some operation →
      ∀ attempt ∈ operation.attempts, ∀ code ∈ attempt.terminalReasonCode, code ∉ budgetDenials) :
    ∃ control operation, db.control = some control ∧
      db.operations.get? command.stepId = some operation ∧ operation.attempts = [] ∧
      operation.policy.kind ≠ .noCall ∧
      control.maxCalls operation.policy.kind ≤ control.calls operation.policy.kind := by
  have outside : ∀ {codes : List String}, rejection.code ∈ codes →
    (∀ code ∈ codes, code ∉ budgetDenials) →
      False := fun listed disjoint => disjoint _ listed exhausted
  unfold reserveAttempt at denied
  split at denied
  · exact (outside (reservationReplay_error denied) (by decide)).elim
  simp only [reserveNewAttempt, bind_error, require_error, requireSome_error, pure_error, and_false,
    exists_false, or_false, Prod.exists] at denied
  rcases denied with early |
    ⟨control, window, active, ⟨_, rfl⟩ | ⟨_, _, ⟨_, rfl⟩ | ⟨_, _, ⟨_, rfl⟩ |
    ⟨_, _, ⟨_, rfl⟩ | ⟨operation, found, unlisted |
      ⟨attempts, listed, unready | ⟨attemptNumber, _, next,
    ⟨_, rfl⟩ | ⟨_, _, overdrawn | ⟨_, _, closed | ⟨_, _, ⟨_, rfl⟩ | ⟨_, _, schema⟩⟩⟩⟩⟩⟩⟩⟩⟩⟩⟩
  · exact (outside (activeControl_error early) (by decide)).elim
  · exact absurd exhausted (by decide)
  · exact absurd exhausted (by decide)
  · exact absurd exhausted (by decide)
  · exact absurd exhausted (by decide)
  · simp only [listAttempts, bind_error, require_error, pure_error, and_false, exists_false,
      or_false] at unlisted
    rw [unlisted.2] at exhausted
    exact absurd exhausted (by decide)
  · obtain ⟨present, _⟩ := operation?_eq_some.mp (requireSome_ok.mp found)
    obtain ⟨rfl, _⟩ := listAttempts_effect (requireSome_ok.mp found) listed
    rcases nextAttempt_error unready with known | ⟨attempt, member, recorded⟩
    · exact (outside known (by decide)).elim
    · exact absurd exhausted (reasons _ operation present attempt member _ recorded)
  · exact absurd exhausted (by decide)
  · obtain ⟨present, _⟩ := operation?_eq_some.mp (requireSome_ok.mp found)
    obtain ⟨rfl, numbered⟩ := listAttempts_effect (requireSome_ok.mp found) listed
    obtain ⟨first, calls, full⟩ := chargeLogicalCall_error overdrawn
    obtain ⟨stored, _⟩ := activeControl_effect active
    refine ⟨control, operation, stored, present, ?_, calls, full⟩
    rcases nextAttempt_effect next with ⟨empty, _⟩ | ⟨previous, last, _, _, number⟩
    · exact empty
    · have member := List.mem_map_of_mem (f := (·.attemptNumber)) (List.mem_of_getLast? last)
      rw [numbered, List.mem_range'_1] at member
      simp only [decide_eq_true_eq] at first
      omega
  · exact (outside (chargeRateWindow_error closed) (by decide)).elim
  · exact absurd exhausted (by decide)
  · rw [attemptSchema_error schema] at exhausted
    exact absurd exhausted (by decide)

theorem reserveDeliveryCall_denied (denied : db.reserveDeliveryCall command = .error rejection)
    (exhausted : rejection.code ∈ budgetDenials) :
    ∃ control step stored, db.control = some control ∧ db.step? command.stepId = some step ∧
      deliverableStep step control command.expectedStepVersion ∧
      db.action? command.actionId = some stored ∧
      deliverableAction db.runId stored.action control command ∧
      (stored.attempts.all fun attempt =>
        !(attempt.attemptNumber < command.deliveryAttemptNumber && attempt.started)) ∧
      control.maxCalls .tool ≤ control.calls .tool := by
  have outside : ∀ {codes : List String}, rejection.code ∈ codes →
    (∀ code ∈ codes, code ∉ budgetDenials) →
      False := fun listed disjoint => disjoint _ listed exhausted
  simp only [reserveDeliveryCall, bind_error, require_error, requireSome_error,
    pure_error, and_false, exists_false, or_false, Prod.exists] at denied
  rcases denied with early |
    ⟨control, window, active, ⟨_, rfl⟩ | ⟨_, _, ⟨_, rfl⟩ | ⟨step, found, ⟨_, rfl⟩ |
    ⟨_, deliverable, ⟨_, rfl⟩ | ⟨stored, present, ⟨_, rfl⟩ | ⟨_, fits, overdrawn | ⟨_, _, closed |
    ⟨_, _, ⟨_, rfl⟩⟩⟩⟩⟩⟩⟩⟩⟩
  · exact (outside (activeControl_error early) (by decide)).elim
  · exact absurd exhausted (by decide)
  · exact absurd exhausted (by decide)
  · exact absurd exhausted (by decide)
  · exact absurd exhausted (by decide)
  · exact absurd exhausted (by decide)
  · obtain ⟨first, _, full⟩ := chargeLogicalCall_error overdrawn
    obtain ⟨storedControl, _⟩ := activeControl_effect active
    exact ⟨control, step, stored, storedControl, requireSome_ok.mp found, require_ok.mp deliverable,
      requireSome_ok.mp present, require_ok.mp fits, first, full⟩
  · exact (outside (chargeRateWindow_error closed) (by decide)).elim
  · exact absurd exhausted (by decide)

end Database

end MarketingAgents
