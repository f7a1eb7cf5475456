import MarketingAgents.Persistence.ExecutionControlRepository

namespace MarketingAgents

open Library

/-! # What each execution-control operation did when it was accepted -/

namespace Database

variable {db after : Database} {control charged : RunExecutionControl}
  {stepId operationKey : String}
variable {attempt : ExecutionAttempt} {operation : Operation}

theorem operation?_eq_some : db.operation? stepId operationKey = some operation ↔
    db.operations.get? stepId = some operation ∧ operation.policy.operationKey = operationKey := by
  simp [operation?, Option.filter_eq_some_iff]

theorem startExecution_effect {expectedControlVersion : Nat} {startedAt : Time}
    (started : db.startExecution expectedControlVersion startedAt = .ok after) :
    ∃ control, db.control = some control ∧
      ((∃ window, control.window = some window ∧ window.startedAt = startedAt ∧ after = db) ∨
        control.window = none ∧ control.cancelRequest = none ∧
        control.version = expectedControlVersion ∧ control.updatedAt ≤ startedAt ∧
        db.run.state = .executing ∧
        after = db.storeControl { control with
          window := some { startedAt, deadlineAt := startedAt + seconds control.runTimeoutSeconds }
          updatedAt := startedAt
          version := control.version + 1 }) := by
  simp only [startExecution, requireControl, bind_ok, requireSome_ok] at started
  obtain ⟨control, stored, rest⟩ := started
  refine ⟨control, stored, ?_⟩
  cases opened : control.window with
  | some window =>
      simp only [opened, bind_ok, require_ok, pure_ok] at rest
      obtain ⟨_, same, rfl⟩ := rest
      exact .inl ⟨window, rfl, same, rfl⟩
  | none =>
      simp only [opened, bind_ok, require_ok, pure_ok] at rest
      obtain ⟨_, uncancelled, _, version, _, ordered, _, executing, same⟩ := rest
      exact .inr ⟨rfl, uncancelled, version, ordered, executing, same.symm⟩

theorem requestCancel_effect {expectedControlVersion : Nat} {requestedAt : Time}
    (requested : db.requestCancel expectedControlVersion actorDigest requestedAt = .ok after) :
    ∃ control, db.control = some control ∧
      ((∃ request, control.cancelRequest = some request ∧ request.requestedAt = requestedAt ∧
          after = db) ∨
        control.cancelRequest = none ∧ control.version = expectedControlVersion ∧
        control.updatedAt ≤ requestedAt ∧
        after = db.storeControl { control with
          cancelRequest := some { requestedAt, actorDigest }
          updatedAt := requestedAt
          version := control.version + 1 }) := by
  simp only [requestCancel, requireControl, bind_ok, requireSome_ok] at requested
  obtain ⟨control, stored, rest⟩ := requested
  refine ⟨control, stored, ?_⟩
  cases cancelled : control.cancelRequest with
  | some request =>
      simp only [cancelled, bind_ok, require_ok, pure_ok] at rest
      obtain ⟨_, same, rfl⟩ := rest
      exact .inl ⟨request, rfl, same.1, rfl⟩
  | none =>
      simp only [cancelled, bind_ok, require_ok, pure_ok] at rest
      obtain ⟨_, version, _, ordered, same⟩ := rest
      exact .inr ⟨rfl, version, ordered, same.symm⟩

theorem chargeRateWindow_effect {reservedAt : Time}
    (charged : db.chargeRateWindow policy reservedAt corrupt exhausted = .ok after) :
    ∃ rateWindows, after = { db with rateWindows } := by
  unfold chargeRateWindow at charged
  simp only at charged
  split at charged
  · exact ⟨_, (pure_ok.mp charged).symm⟩
  · simp only [bind_ok, require_ok] at charged
    obtain ⟨_, _, charged⟩ := charged
    split at charged
    · cases charged
    · exact ⟨_, (pure_ok.mp charged).symm⟩

theorem activeControl_effect {expectedControlVersion : Nat} {reservedAt : Time}
    {window : ExecutionWindow}
    (active : db.activeControl expectedControlVersion reservedAt staleCode staleMessage =
      .ok (control, window)) :
    db.control = some control ∧ control.window = some window ∧ control.cancelRequest = none ∧
      control.version = expectedControlVersion ∧ control.updatedAt ≤ reservedAt ∧
      reservedAt < window.deadlineAt := by
  simp only [activeControl, requireControl, bind_ok, requireSome_ok, require_ok, pure_ok,
    Prod.mk.injEq] at active
  obtain ⟨stored, found, _, uncancelled, opened, started, _, before, _, version, _,
    ordered, rfl, rfl⟩ :=
    active
  exact ⟨found, started, uncancelled, version, ordered, before⟩

theorem chargeBudget_effect (accepted : chargeBudget control kind = .ok charged) :
    (kind = .model ∧ control.modelCalls < control.maxModelCalls ∧
        charged = { control with modelCalls := control.modelCalls + 1 }) ∨
      (kind = .tool ∧ control.toolCalls < control.maxToolCalls ∧
        charged = { control with toolCalls := control.toolCalls + 1 }) ∨
      kind = .noCall ∧ charged = control := by
  cases kind with
  | model =>
      simp only [chargeBudget, bind_ok, require_ok, pure_ok] at accepted
      obtain ⟨_, below, same⟩ := accepted
      exact .inl ⟨rfl, below, same.symm⟩
  | tool =>
      simp only [chargeBudget, bind_ok, require_ok, pure_ok] at accepted
      obtain ⟨_, below, same⟩ := accepted
      exact .inr (.inl ⟨rfl, below, same.symm⟩)
  | noCall => exact .inr (.inr ⟨rfl, (pure_ok.mp accepted).symm⟩)

theorem chargeLogicalCall_effect {first : Bool}
    (accepted : chargeLogicalCall first control kind = .ok charged) :
    charged = { control with
        modelCalls := control.modelCalls + (if first && kind = .model then 1 else 0)
        toolCalls := control.toolCalls + (if first && kind = .tool then 1 else 0) } ∧
      (control.modelCalls ≤ control.maxModelCalls → charged.modelCalls ≤ charged.maxModelCalls) ∧
      (control.toolCalls ≤ control.maxToolCalls → charged.toolCalls ≤ charged.maxToolCalls) := by
  cases first with
  | false =>
      obtain rfl : control = charged := Except.ok.inj accepted
      exact ⟨by simp, id, id⟩
  | true =>
      rcases chargeBudget_effect accepted with ⟨rfl, below, rfl⟩ | ⟨rfl, below, rfl⟩ | ⟨rfl, rfl⟩
      · exact ⟨by simp, fun _ => below, id⟩
      · exact ⟨by simp, id, fun _ => below⟩
      · exact ⟨by simp, id, id⟩

theorem nextAttempt_effect {reservedAt eligibleAt : Time}
    {attemptNumber : Nat} (next : nextAttempt attempts reservedAt =
      .ok (attemptNumber, eligibleAt)) :
    (attempts = [] ∧ attemptNumber = 1 ∧ eligibleAt = reservedAt) ∨
      ∃ previous, attempts.getLast? = some previous ∧ previous.retryNotBefore = some eligibleAt ∧
        eligibleAt ≤ reservedAt ∧ attemptNumber = previous.attemptNumber + 1 := by
  unfold nextAttempt at next
  split at next
  · rename_i empty
    cases next
    exact .inl ⟨List.getLast?_eq_none_iff.mp empty, rfl, rfl⟩
  · rename_i previous last
    split at next
    · cases next
    · rename_i completion completed
      split at next
      · cases next
      · rename_i retry allowed
        split at next
        · cases next
        · cases next
          rename_i elapsed
          refine .inr ⟨previous, last, ?_, Nat.le_of_not_lt elapsed, rfl⟩
          simp [ExecutionAttempt.retryNotBefore, completed, allowed]

theorem listAttempts_effect (found : db.operation? stepId operationKey = some operation)
    (listed : db.listAttempts stepId operationKey = .ok attempts) :
    attempts = operation.attempts ∧
      attempts.map (·.attemptNumber) = List.range' 1 attempts.length := by
  simp only [listAttempts, found, bind_ok, require_ok, pure_ok, Option.map_some,
    Option.getD_some] at listed
  obtain ⟨_, contiguous, rfl⟩ := listed
  exact ⟨rfl, contiguous⟩

/-- The attempt that a reservation appends, with the fields that later checks compare. -/
structure ReservedAttempt (command : AttemptReservationCommand) (operation : Operation)
    (control : RunExecutionControl) (window : ExecutionWindow)
    (attempt : ExecutionAttempt) : Prop where
  id : attempt.id = command.attemptId
  operationKey : attempt.operationKey = command.operationKey
  policyHash : attempt.policyHash = operation.policy.policyHash
  kind : attempt.kind = operation.policy.kind
  sourceControlVersion : attempt.sourceControlVersion = control.version
  sourceStepVersion : attempt.sourceStepVersion = command.expectedStepVersion
  reservedAt : attempt.reservedAt = command.reservedAt
  callDeadlineAt : attempt.callDeadlineAt =
    min (command.reservedAt + seconds operation.policy.stepTimeoutSeconds) window.deadlineAt
  completion : attempt.completion = none
  withinLimit : attempt.attemptNumber ≤ operation.policy.maxAttempts
  follows : (operation.attempts = [] ∧ attempt.attemptNumber = 1 ∧
      attempt.eligibleAt = attempt.reservedAt) ∨
    ∃ previous, operation.attempts.getLast? = some previous ∧
      previous.retryNotBefore = some attempt.eligibleAt ∧ attempt.eligibleAt ≤ attempt.reservedAt ∧
      attempt.attemptNumber = previous.attemptNumber + 1

theorem reserveNewAttempt_effect (reserved : db.reserveNewAttempt command = .ok (attempt, after)) :
    ∃ control window step operation charged rateWindows,
      db.control = some control ∧ control.window = some window ∧ control.cancelRequest = none ∧
      control.version = command.expectedControlVersion ∧ control.updatedAt ≤ command.reservedAt ∧
      db.run.state = .executing ∧ db.step? command.stepId = some step ∧
      runnableReadStep step command.expectedStepVersion ∧
      db.operation? command.stepId command.operationKey = some operation ∧
      ReservedAttempt command operation control window attempt ∧
      chargeLogicalCall (attempt.attemptNumber = 1) control operation.policy.kind = .ok charged ∧
      after = { db with
        rateWindows
        control := some { charged with
          updatedAt := command.reservedAt
          version := control.version + 1 }
        operations := db.operations.set command.stepId { operation with
          attempts := operation.attempts ++ [attempt] } } := by
  simp only [reserveNewAttempt, bind_ok, require_ok, requireSome_ok, pure_ok, Prod.exists,
    Prod.mk.injEq] at reserved
  obtain ⟨control, window, active, _, executing, step, found, _, runnable, operation,
    operationFound,
    attempts, listed, attemptNumber, eligibleAt, next, _, within, charged, charge, windowed,
    windowCharged, _, _, inputSchemaId, _, rfl, rfl⟩ := reserved
  obtain ⟨stored, opened, uncancelled, version, ordered, _⟩ := activeControl_effect active
  obtain ⟨rfl, _⟩ := listAttempts_effect operationFound listed
  obtain ⟨rateWindows, rfl⟩ := chargeRateWindow_effect windowCharged
  refine ⟨control, window, step, operation, charged, rateWindows, stored, opened,
    uncancelled, version, ordered, executing, found, runnable, operationFound, ?_, charge, rfl⟩
  exact {
    id := rfl
    operationKey := rfl
    policyHash := rfl
    kind := rfl
    sourceControlVersion := version.symm
    sourceStepVersion := rfl
    reservedAt := rfl
    callDeadlineAt := rfl
    completion := rfl
    withinLimit := within
    follows := by
      rcases nextAttempt_effect next with ⟨empty, rfl, rfl⟩ | ⟨previous, last, retry, ordered, rfl⟩
      · exact .inl ⟨empty, rfl, rfl⟩
      · exact .inr ⟨previous, last, retry, ordered, rfl⟩ }

theorem reserveAttempt_effect (reserved : db.reserveAttempt command = .ok (attempt, after)) :
    (db.attempt? command.attemptId = some (command.stepId, attempt) ∧ after = db) ∨
      db.attempt? command.attemptId = none ∧
        db.reserveNewAttempt command = .ok (attempt, after) := by
  unfold reserveAttempt at reserved
  split at reserved
  · rename_i stepId stored found
    simp only [reservationReplay, bind_ok, require_ok, requireSome_ok, pure_ok,
      Prod.mk.injEq] at reserved
    obtain ⟨_, ⟨rfl, _⟩, _, _, _, _, _, _, _, _, rfl, rfl⟩ := reserved
    exact .inl ⟨found, rfl⟩
  · rename_i absent
    exact .inr ⟨absent, reserved⟩

theorem reserveDeliveryCall_effect {permit : DeliveryCallPermit}
    (reserved : db.reserveDeliveryCall command = .ok (permit, after)) :
    ∃ control window step stored charged rateWindows,
      db.control = some control ∧ control.window = some window ∧ control.cancelRequest = none ∧
      control.updatedAt ≤ command.reservedAt ∧
      db.run.state = .executing ∧ db.step? command.stepId = some step ∧
      deliverableStep step control command.expectedStepVersion ∧
      db.action? command.actionId = some stored ∧
      deliverableAction db.runId stored.action control command ∧
      permit.logicalBudgetConsumed = (stored.attempts.all fun attempt =>
        !(attempt.attemptNumber < command.deliveryAttemptNumber && attempt.started)) ∧
      chargeLogicalCall permit.logicalBudgetConsumed control .tool = .ok charged ∧
      after = { db with
        rateWindows
        control := some { charged with
          updatedAt := command.reservedAt
          version := control.version + 1 } } := by
  simp only [reserveDeliveryCall, bind_ok, require_ok, requireSome_ok, pure_ok, Prod.exists,
    Prod.mk.injEq] at reserved
  obtain ⟨control, window, active, _, executing, step, found, _, deliverable, stored,
    present, _, fits, charged, charge, windowed, windowCharged, _, _, rfl, rfl⟩ := reserved
  obtain ⟨storedControl, opened, uncancelled, _, ordered, _⟩ := activeControl_effect active
  obtain ⟨rateWindows, rfl⟩ := chargeRateWindow_effect windowCharged
  refine ⟨control, window, step, stored, charged, rateWindows, storedControl, opened, uncancelled,
    ordered, executing, found, deliverable, present, fits, rfl, charge, rfl⟩

theorem attempt?_eq_some (found : db.attempt? attemptId = some (stepId, attempt)) :
    ∃ operation, db.operations.get? stepId = some operation ∧ attempt ∈ operation.attempts ∧
      attempt.id = attemptId := by
  obtain ⟨⟨key, operation⟩, member, located⟩ := List.exists_of_findSome?_eq_some found
  simp only [Option.map_eq_some_iff, Prod.mk.injEq] at located
  obtain ⟨same, lookup, rfl, rfl⟩ := located
  exact ⟨operation, Table.get?_eq_some_iff.mpr member, List.mem_of_find?_eq_some lookup,
    by simpa using List.find?_some lookup⟩

theorem attempt?_eq_none (absent : db.attempt? attemptId = none)
    (stored : db.operations.get? stepId = some operation) :
    ∀ attempt ∈ operation.attempts, attempt.id ≠ attemptId := by
  intro attempt member same
  have missing := List.findSome?_eq_none_iff.mp absent _ (Table.mem_entries_of_get? stored)
  rw [Option.map_eq_none_iff, List.find?_eq_none] at missing
  exact missing attempt member (by simp [same])

theorem completeOpenAttempt_effect {completion : AttemptCompletion}
    (completed : db.completeOpenAttempt command stepId attempt control window =
      .ok (completion, after)) :
    ∃ operation, db.operation? stepId attempt.operationKey = some operation ∧
      db.run.state ∈ [.executing, .cancelled, .failed, .rejected] ∧
      control.version = command.expectedControlVersion ∧
      max (max attempt.reservedAt control.updatedAt) db.run.updatedAt ≤ command.completedAt ∧
      completion = db.completionOf command control window operation.policy attempt.attemptNumber ∧
      after = { db with
        control := some { control with
          updatedAt := command.completedAt
          version := control.version + 1 }
        operations := db.operations.set stepId
            (operation.finish command.attemptId completion) } := by
  simp only [completeOpenAttempt, bind_ok, require_ok, requireSome_ok, pure_ok,
    Prod.mk.injEq] at completed
  obtain ⟨_, parent, _, version, _, ordered, operation, found, rfl, rfl⟩ := completed
  exact ⟨operation, found, parent, version, ordered, rfl, rfl⟩

theorem completeAttempt_effect {completion : AttemptCompletion}
    (completed : db.completeAttempt command = .ok (completion, after)) :
    ∃ stepId attempt control window, db.attempt? command.attemptId = some (stepId, attempt) ∧
      db.control = some control ∧ control.window = some window ∧
      (attempt.completion = some completion ∧ after = db ∨
        attempt.completion = none ∧
          db.completeOpenAttempt command stepId attempt control window =
            .ok (completion, after)) := by
  simp only [completeAttempt, bind_ok, requireSome_ok, Prod.exists] at completed
  obtain ⟨_, _, stepId, attempt, found, control, stored, window, opened, rest⟩ := completed
  refine ⟨stepId, attempt, control, window, found, stored, opened, ?_⟩
  cases finished : attempt.completion with
  | some previous =>
      simp only [finished, bind_ok, require_ok, pure_ok, Prod.mk.injEq] at rest
      obtain ⟨_, _, rfl, rfl⟩ := rest
      exact .inl ⟨rfl, rfl⟩
  | none =>
      simp only [finished] at rest
      exact .inr ⟨rfl, rest⟩

theorem recoverExpiredAttempt_effect {completion : AttemptCompletion}
    (recovered : db.recoverExpiredAttempt command = .ok (completion, after)) :
    ∃ stepId attempt control window, db.attempt? command.attemptId = some (stepId, attempt) ∧
      db.control = some control ∧ control.window = some window ∧
      attempt.callDeadlineAt ≤ command.recoveredAt ∧
      (attempt.completion = some completion ∧ after = db ∨
        attempt.completion = none ∧ db.run.state ≠ .completed ∧
          db.completeAttempt {
            attemptId := command.attemptId
            outcome := db.recoveryOutcome control
            expectedControlVersion := control.version
            completedAt := command.recoveredAt
            safeErrorCode := some (recoveryErrorCode (db.recoveryOutcome control))
            outputArtifactId := none } = .ok (completion, after)) := by
  simp only [recoverExpiredAttempt, ExpiredAttemptRecoveryCommand.validate, bind_ok, require_ok,
    requireSome_ok, Prod.exists] at recovered
  obtain ⟨_, ⟨_, _, expired⟩, stepId, attempt, found, _, deadline, operation, _, control,
    stored, window, opened, _, _, rest⟩ := recovered
  refine ⟨stepId, attempt, control, window, found, stored, opened,
    by rw [deadline]; exact expired, ?_⟩
  cases finished : attempt.completion with
  | some previous =>
      simp only [finished, bind_ok, require_ok, pure_ok, Prod.mk.injEq] at rest
      obtain ⟨_, _, rfl, rfl⟩ := rest
      exact .inl ⟨rfl, rfl⟩
  | none =>
      simp only [finished, bind_ok, require_ok] at rest
      obtain ⟨_, live, rest⟩ := rest
      exact .inr ⟨rfl, live, rest⟩

theorem completionOf_retry {attemptNumber : Nat} {retryNotBefore : Time}
    (retry : (db.completionOf command control window policy attemptNumber).retryNotBefore =
      some retryNotBefore) :
    (db.completionOf command control window policy attemptNumber).outcome = .transientFailure ∧
      (db.completionOf command control window policy attemptNumber).terminalReasonCode = none ∧
      attemptNumber < policy.maxAttempts := by
  simp only [completionOf] at retry ⊢
  cases outcome : db.effectiveOutcome control command.outcome with
  | transientFailure =>
      simp only [outcome, retryDisposition] at retry ⊢
      split at retry
      · cases retry
      · rename_i remaining
        split at retry
        · cases retry
        · rename_i inTime
          refine ⟨trivial, ?_, Nat.lt_of_not_le remaining⟩
          simp only [if_neg remaining, if_neg inTime]
  | _ => simp [outcome, retryDisposition] at retry

end Database

end MarketingAgents
