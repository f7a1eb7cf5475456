import MarketingAgents.Persistence.AttemptHistory
import MarketingAgents.Services.CleanupEffects
import MarketingAgents.Services.ControlledReadExecutor

namespace MarketingAgents

open Library

/-! # What the READ executor's transactions changed -/

/-- The step rows around a reservation: the first attempt starts its step. -/
inductive AttemptStep (stepId : String) (attempt : ExecutionAttempt)
    (before : Table String RunStep) : Table String RunStep → Prop where
  | first {step started : RunStep} (found : before.get? stepId = some step)
      (number : attempt.attemptNumber = 1) (source : attempt.sourceStepVersion = step.version)
      (advanced : step.Advanced .start started) :
      AttemptStep stepId attempt before (before.set stepId started)
  | retry {step : RunStep} (found : before.get? stepId = some step)
      (number : attempt.attemptNumber ≠ 1) (source : attempt.sourceStepVersion = step.version)
      (executing : step.state = .executing) : AttemptStep stepId attempt before before

/-- The control and the operations after a reservation was charged. -/
def AttemptCharged (db : Database) (stepId : String) (attempt : ExecutionAttempt)
    (control' : Option RunExecutionControl) (operations : Table String Operation) : Prop :=
  ∃ command control window operation charged,
    db.control = some control ∧ control.window = some window ∧ control.cancelRequest = none ∧
    db.attempt? command.attemptId = none ∧ db.operations.get? stepId = some operation ∧
    command.operationKey = operation.policy.operationKey ∧
    Database.ReservedAttempt command operation control window attempt ∧
    Database.chargeLogicalCall (attempt.attemptNumber = 1) control operation.policy.kind =
      .ok charged ∧
    control' = some { charged with
      updatedAt := command.reservedAt
      version := control.version + 1 } ∧
    operations = db.operations.set stepId { operation with
      attempts := operation.attempts ++ [attempt] }

/-- A new attempt was reserved for the operation of a READ step. -/
structure ReadReserved (db : Database) (stepId : String) (attempt : ExecutionAttempt)
    (after : Database) : Prop where
  executing : db.run.state = .executing
  step : AttemptStep stepId attempt db.steps after.steps
  charged : AttemptCharged db stepId attempt after.control after.operations
  frame : after = { db with
    rateWindows := after.rateWindows
    control := after.control
    operations := after.operations
    steps := after.steps
    stepTransitions := after.stepTransitions
    audits := after.audits }

/-- The open attempt of a step was completed. -/
structure AttemptClosed (db : Database) (stepId : String) (completion : AttemptCompletion)
    (completed : Database) : Prop where
  accounts : ∃ command attempt operation control window,
    db.operations.get? stepId = some operation ∧ attempt ∈ operation.attempts ∧
    attempt.completion = none ∧ db.control = some control ∧ control.window = some window ∧
    db.run.state ∈ [.executing, .cancelled, .failed, .rejected] ∧
    completion = db.completionOf command control window operation.policy attempt.attemptNumber ∧
    completed.control = some { control with
      updatedAt := command.completedAt
      version := control.version + 1 } ∧
    completed.operations = db.operations.set stepId (operation.finish attempt.id completion)
  frame : completed = { db with control := completed.control, operations := completed.operations }

/-- What follows the completion of an attempt in the same transaction. -/
inductive AttemptConclusion (completed : Database) (stepId : String)
    (completion : AttemptCompletion) : Database → Prop where
  | retry {audits : List AuditEvent} (allowed : completion.retryNotBefore ≠ none) :
      AttemptConclusion completed stepId completion { completed with audits }
  | step {before step : RunStep} {command : StepLifecycleCommand}
      {stepTransitions : List StepStateTransition} {audits : List AuditEvent}
      (final : completion.retryNotBefore = none) (ends : command = .succeed ∨ command = .fail)
      (found : completed.step? stepId = some before) (advanced : before.Advanced command step) :
      AttemptConclusion completed stepId completion { completed with
        steps := completed.steps.set stepId step
        stepTransitions
        audits }
  | run {planHash : String} {failedStep : RunStep} {cleaned : Database} {audits : List AuditEvent}
      (final : completion.retryNotBefore = none)
      (cleanup : TerminalExecutionCleanupService.CleanedUp completed planHash stepId none failedStep
        cleaned) : AttemptConclusion completed stepId completion { cleaned with audits }

/-- An attempt was completed together with what its outcome asks for. -/
def ReadClosed (db : Database) (stepId : String) (after : Database) : Prop :=
  ∃ completion completed, AttemptClosed db stepId completion completed ∧
    AttemptConclusion completed stepId completion after

namespace ControlledReadExecutor

variable {db after completed : Database} {stepId attemptId : String} {step : RunStep}
variable {completion : AttemptCompletion} {occurredAt : Time}

theorem completeAttempt_closed {command : AttemptCompletionCommand} {attempt : ExecutionAttempt}
    (located : db.attempt? command.attemptId = some (stepId, attempt))
    (isOpen : attempt.completion = none)
    (accepted : db.completeAttempt command = .ok (completion, completed)) :
    AttemptClosed db stepId completion completed := by
  obtain ⟨_, _, control, window, same, stored, opened, ⟨finished, _⟩ | ⟨_, accepted⟩⟩ :=
    Database.completeAttempt_effect accepted
  · cases located.symm.trans same
    rw [isOpen] at finished
    cases finished
  · cases located.symm.trans same
    obtain ⟨operation, found, parent, _, _, completionIs, rfl⟩ :=
      Database.completeOpenAttempt_effect accepted
    obtain ⟨present, _⟩ := Database.operation?_eq_some.mp found
    obtain ⟨owner, ownerFound, member, identified⟩ := Database.attempt?_eq_some located
    obtain rfl : operation = owner := Option.mem_unique present ownerFound
    exact {
      accounts := ⟨command, attempt, operation, control, window, present, member, isOpen,
        stored, opened, parent, completionIs, rfl, by rw [identified]⟩
      frame := rfl }

theorem failStep_effect {observed : Bool} {events audits : List AuditEvent}
    (final : completion.retryNotBefore = none) (found : completed.step? stepId = some step)
    (failed : failStep completed stepId step reasonCode observed occurredAt code message =
      .ok (events, after)) :
    AttemptConclusion completed stepId completion { after with audits } := by
  unfold failStep at failed
  split at failed
  · simp only [TerminalExecutionCleanupService.failOrdinary, bind_ok, pure_ok, Prod.exists,
      Prod.mk.injEq] at failed
    obtain ⟨cleanup, cleaned, accepted, _, rfl⟩ := failed
    exact .run final (TerminalExecutionCleanupService.failExecution_effect accepted)
  · simp only [bind_ok, pure_ok, Prod.exists, Prod.mk.injEq] at failed
    obtain ⟨result, _, accepted, _, rfl⟩ := failed
    obtain ⟨advanced, _, _, _, rfl⟩ := Database.advanceStep_effect accepted found
    exact .step final (.inr rfl) found advanced

theorem recoverExpired_effect {openAttempt : ExecutionAttempt} {observed : Bool}
    (located : db.attempt? openAttempt.id = some (stepId, openAttempt))
    (isOpen : openAttempt.completion = none) (found : db.step? stepId = some step)
    (recovered : recoverExpired db stepId step openAttempt observed occurredAt =
      .ok (completion, after)) : ReadClosed db stepId after := by
  simp only [recoverExpired, bind_ok, Prod.exists] at recovered
  obtain ⟨_, completed, accepted, rest⟩ := recovered
  obtain ⟨_, _, control, _, same, _, _, _, ⟨finished, _⟩ | ⟨_, _, accepted⟩⟩ :=
    Database.recoverExpiredAttempt_effect accepted
  · cases located.symm.trans same
    rw [isOpen] at finished
    cases finished
  have closed := completeAttempt_closed located isOpen accepted
  have stepFound : completed.step? stepId = some step := by
    rw [closed.frame]
    exact found
  split at rest
  · rename_i retryNotBefore allowed
    simp only [pure_ok, Prod.mk.injEq] at rest
    obtain ⟨rfl, rfl⟩ := rest
    exact ⟨_, _, closed, .retry (by simp [allowed])⟩
  · rename_i final
    simp only [bind_ok, pure_ok, Prod.exists, Prod.mk.injEq] at rest
    obtain ⟨_, _, failed, rfl, rfl⟩ := rest
    exact ⟨_, _, closed, failStep_effect final stepFound failed⟩

theorem concludeStep_effect {observed : Bool}
    {events audits : List AuditEvent} (final : completion.retryNotBefore = none)
    (steps : completed.steps = db.steps) (found : db.step? stepId = some step)
    (concluded : concludeStep db completed context stepId step outcome completion
      observed occurredAt = .ok (events, after)) :
    AttemptConclusion completed stepId completion { after with audits } := by
  have stepFound : completed.step? stepId = some step := by
    rw [Database.step?, steps]
    exact found
  unfold concludeStep at concluded
  split at concluded
  · simp only [TerminalExecutionCleanupService.failRuntimeControl, bind_ok, pure_ok, Prod.exists,
      Prod.mk.injEq] at concluded
    obtain ⟨cleanup, cleaned, ⟨_, _, accepted⟩, _, rfl⟩ := concluded
    exact .run final (TerminalExecutionCleanupService.failExecution_effect accepted)
  · split at concluded
    · simp only [bind_ok, pure_ok, Prod.exists, Prod.mk.injEq] at concluded
      obtain ⟨result, _, accepted, _, rfl⟩ := concluded
      obtain ⟨advanced, _, _, _, rfl⟩ := Database.advanceStep_effect accepted stepFound
      exact .step final (.inl rfl) stepFound advanced
    · exact failStep_effect final stepFound concluded

theorem completeOnce_effect
    (accepted : completeOnce db context attemptId stepId outcome occurredAt =
      .ok (completion, after)) :
    ReadClosed db stepId after := by
  simp only [completeOnce, completionContext, bind_ok, require_ok, requireSome_ok,
    pure_ok, Prod.exists, Prod.mk.injEq] at accepted
  obtain ⟨_, _, ⟨owner, attempt, located, step, found, control, _, _, ⟨isOpen, _, rfl, _⟩,
    rfl, rfl⟩, _, _, _, completed, completedBy, rest⟩ := accepted
  have closed := completeAttempt_closed located isOpen completedBy
  have steps : completed.steps = db.steps := by rw [closed.frame]
  split at rest
  · rename_i retryNotBefore allowed
    simp only [pure_ok, Prod.mk.injEq] at rest
    obtain ⟨rfl, rfl⟩ := rest
    exact ⟨_, _, closed, .retry (by simp [allowed])⟩
  · rename_i final
    simp only [bind_ok, pure_ok, Prod.exists, Prod.mk.injEq] at rest
    obtain ⟨_, _, concluded, rfl, rfl⟩ := rest
    exact ⟨_, _, closed, concludeStep_effect final steps found concluded⟩

/-- What the attempts of a step have to satisfy for its reservations to be read off. -/
structure AttemptsKnown (db : Database) (stepId : String) : Prop where
  located : ∀ operation attempt, db.operations.get? stepId = some operation →
    attempt ∈ operation.attempts → db.attempt? attempt.id = some (stepId, attempt)
  openIsLast : ∀ operation attempt, db.operations.get? stepId = some operation →
    attempt ∈ operation.attempts → attempt.completion = none →
      operation.attempts.getLast? = some attempt

theorem reservationContext_effect {operation : Operation} {control : RunExecutionControl}
    (context : reservationContext db stepId step = .ok (operation, control)) :
    db.operation? stepId step.runtimePolicy.operationKey = some operation ∧
      db.control = some control := by
  simp only [reservationContext, bind_ok, require_ok, requireSome_ok, pure_ok,
    Prod.mk.injEq] at context
  obtain ⟨_, _, _, _, operation, found, control, stored, _, _, _, _, rfl, rfl⟩ := context
  exact ⟨found, stored⟩

theorem reserveCall_effect {command : ControlledReadCommand}
    {control : RunExecutionControl} {reservation : ReadReservation}
    (found : db.step? command.stepId = some step) (known : AttemptsKnown db command.stepId)
    (operationFound : db.operation? command.stepId step.runtimePolicy.operationKey = some operation)
    (controlFound : db.control = some control)
    (closed : ∀ attempt, operation.attempts.getLast? = some attempt → attempt.completion ≠ none)
    (accepted : reserveCall adapter db command step operation control attemptId occurredAt =
      .ok (reservation, after)) :
    ∃ attempt, reservation = .reserved attempt ∧ ReadReserved db command.stepId attempt after := by
  simp only [reserveCall, bind_ok, require_ok, Prod.exists] at accepted
  obtain ⟨_, ⟨_, uncancelled⟩, _, _, _, _, attempt, reserved, reservedBy, _, isOpen, rest⟩ :=
    accepted
  obtain ⟨present, _⟩ := Database.operation?_eq_some.mp operationFound
  rcases Database.reserveAttempt_effect reservedBy with ⟨located, rfl⟩ | ⟨absent, reservedBy⟩
  · obtain ⟨owner, ownerFound, member, _⟩ := Database.attempt?_eq_some located
    obtain rfl : operation = owner := Option.mem_unique present ownerFound
    exact absurd isOpen (closed attempt (known.openIsLast operation attempt present member isOpen))
  obtain ⟨same, window, stepAgain, again, charged, rateWindows, stored, opened, _, _, _,
    executing, stepFound,
    _, lookup, reservedAttempt, charge, rfl⟩ := Database.reserveNewAttempt_effect reservedBy
  obtain rfl : step = stepAgain := Option.mem_unique found stepFound
  obtain rfl : control = same := Option.mem_unique controlFound stored
  obtain rfl : operation = again := Option.mem_unique operationFound lookup
  have named := (Database.operation?_eq_some.mp operationFound).2
  have accounts : AttemptCharged db command.stepId attempt (some { charged with
        updatedAt := occurredAt
        version := control.version + 1 })
      (db.operations.set command.stepId { operation with
        attempts := operation.attempts ++ [attempt] }) :=
    ⟨_, control, window, operation, charged, stored, opened, uncancelled, absent,
      present, named.symm, reservedAttempt, charge, rfl, rfl⟩
  split at rest
  · rename_i first
    simp only [bind_ok, require_ok, pure_ok, Prod.exists, Prod.mk.injEq] at rest
    obtain ⟨_, _, result, _, started, rfl, rfl⟩ := rest
    obtain ⟨advanced, _, _, _, rfl⟩ := Database.advanceStep_effect started found
    exact ⟨attempt, rfl, executing, .first found first reservedAttempt.sourceStepVersion advanced,
      accounts, rfl⟩
  · rename_i later
    simp only [bind_ok, require_ok, pure_ok, Prod.mk.injEq] at rest
    obtain ⟨_, running, rfl, rfl⟩ := rest
    exact ⟨attempt, rfl, executing, .retry found later reservedAttempt.sourceStepVersion running,
      accounts, rfl⟩

theorem reserve_effect {command : ControlledReadCommand}
    {reservation : ReadReservation} (known : AttemptsKnown db command.stepId)
    (accepted : reserve adapter db command attemptId occurredAt = .ok (reservation, after)) :
    (∃ completion, reservation = .recovered completion ∧ ReadClosed db command.stepId after) ∨
      ∃ attempt, reservation = .reserved attempt ∧
        ReadReserved db command.stepId attempt after := by
  simp only [reserve, bind_ok, requireSome_ok, Prod.exists] at accepted
  obtain ⟨step, found, operation, control, context, attempts, listed, rest⟩ := accepted
  obtain ⟨operationFound, stored⟩ := reservationContext_effect context
  obtain ⟨present, _⟩ := Database.operation?_eq_some.mp operationFound
  obtain ⟨rfl, _⟩ := Database.listAttempts_effect operationFound listed
  split at rest
  · rename_i openAttempt last
    rw [Option.filter_eq_some_iff] at last
    have isOpen : openAttempt.completion = none := by
      simpa [ExecutionAttempt.isOpen] using last.2
    split at rest
    · cases rest
    · simp only [bind_ok, pure_ok, Prod.exists, Prod.mk.injEq] at rest
      obtain ⟨completion, _, recovered, rfl, rfl⟩ := rest
      exact .inl ⟨completion, rfl, recoverExpired_effect
        (known.located operation openAttempt present (List.mem_of_getLast? last.1)) isOpen
          found recovered⟩
  · rename_i noOpen
    refine .inr (reserveCall_effect found known operationFound stored ?_ rest)
    intro attempt last finished
    have impossible := noOpen
    simp [last, Option.filter, ExecutionAttempt.isOpen, finished] at impossible

theorem recoverCancelledAttempt_effect {result : Option AttemptCompletion}
    (known : AttemptsKnown db stepId)
    (accepted : recoverCancelledAttempt db stepId occurredAt = .ok (result, after)) :
    (result = none ∧ after = db) ∨
      ∃ completion, result = some completion ∧ ReadClosed db stepId after := by
  simp only [recoverCancelledAttempt, bind_ok, require_ok, requireSome_ok] at accepted
  obtain ⟨step, found, control, _, operation, operationFound, _, _, attempts, listed, rest⟩ :=
    accepted
  obtain ⟨present, named⟩ := Database.operation?_eq_some.mp operationFound
  rw [named] at listed
  obtain ⟨rfl, _⟩ := Database.listAttempts_effect operationFound listed
  split at rest
  · simp only [pure_ok, Prod.mk.injEq] at rest
    exact .inl ⟨rest.1.symm, rest.2.symm⟩
  · rename_i openAttempt last
    rw [Option.filter_eq_some_iff] at last
    have isOpen : openAttempt.completion = none := by
      simpa [ExecutionAttempt.isOpen] using last.2
    simp only [bind_ok, require_ok] at rest
    obtain ⟨_, _, rest⟩ := rest
    split at rest
    · simp only [pure_ok, Prod.mk.injEq] at rest
      exact .inl ⟨rest.1.symm, rest.2.symm⟩
    · simp only [bind_ok, pure_ok, Prod.exists, Prod.mk.injEq] at rest
      obtain ⟨completion, _, recovered, rfl, rfl⟩ := rest
      exact .inr ⟨completion, rfl, recoverExpired_effect
        (known.located operation openAttempt present (List.mem_of_getLast? last.1)) isOpen
          found recovered⟩

theorem recordRuntimeControlDenial_effect
    (recorded : recordRuntimeControlDenial db context stepId error occurredAt = .ok after) :
    (∃ audits, after = { db with audits }) ∨ ∃ planHash failedStep cleaned audits,
      TerminalExecutionCleanupService.CleanedUp db planHash stepId none failedStep cleaned ∧
      after = { cleaned with audits } := by
  unfold recordRuntimeControlDenial at recorded
  split at recorded
  · exact .inl ⟨db.audits, (pure_ok.mp recorded).symm⟩
  · split at recorded
    · exact .inl ⟨db.audits, (pure_ok.mp recorded).symm⟩
    · simp only at recorded
      split at recorded
      · simp only [TerminalExecutionCleanupService.failRuntimeControl, bind_ok, pure_ok,
          Prod.exists] at recorded
        obtain ⟨cleanup, cleaned, ⟨_, _, accepted⟩, rfl⟩ := recorded
        exact .inr ⟨_, _, cleaned, _, TerminalExecutionCleanupService.failExecution_effect accepted,
          rfl⟩
      · exact .inl ⟨_, (pure_ok.mp recorded).symm⟩

end ControlledReadExecutor

end MarketingAgents
