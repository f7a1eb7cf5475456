import MarketingAgents.Services.CleanupEffects
import MarketingAgents.Services.DispatchEffects

namespace MarketingAgents

open Library

/-! # How the dispatcher's transactions end an action -/

/-- The state an outcome leaves its action in. -/
def WriteOutcome.actionState : WriteOutcome → ExternalActionState
  | succeeded _ _ => .succeeded
  | failed _ => .failed
  | outcomeUnknown _ => .outcomeUnknown
  | preCallExhausted => .failed

def WriteOutcome.conclusion : WriteOutcome → DispatchConclusion
  | succeeded _ _ => .succeeded
  | failed _ => .failed
  | outcomeUnknown _ => .outcomeUnknown
  | preCallExhausted => .failed

/-- The current attempt of a dispatching action was ended with an outcome. -/
structure StoredAction.Concluded (outcome : WriteOutcome)
    (stored updated : StoredAction) : Prop where
  dispatching : stored.action.state = .dispatching
  row : ∃ occurredAt result reasonCode, updated.action.toExternalActionRow =
    { stored.settledRow outcome.actionState occurredAt with
      result
      terminalReasonCode := reasonCode }
  attempts : ∃ lease completion, stored.action.lease = some lease ∧
    completion.conclusion = outcome.conclusion ∧
    updated.attempts = stored.concludeAttempt lease.attemptNumber completion
  called : stored.action.call = none ↔ outcome = .preCallExhausted

namespace ExternalActionDispatcher

variable {dispatcher : Dispatcher} {db after : Database} {actionId leaseOwner : String}
variable {previous : ExternalAction} {lease : DispatchLease} {outcome : WriteOutcome}
  {occurredAt : Time}
variable {stored : StoredAction} {step : RunStep}

theorem complete_concluded {callOutcome : CallOutcome} {expectedVersion attemptNumber : Nat}
    (found : db.action? actionId = some stored)
    (state : callOutcome.state = outcome.actionState)
    (conclusion : callOutcome.conclusion = outcome.conclusion)
    (called : outcome ≠ .preCallExhausted)
    (completed : db.complete actionId expectedVersion leaseOwner attemptNumber callOutcome =
      some after) :
    ∃ updated, stored.Concluded outcome updated ∧ after = db.storeAction actionId updated := by
  obtain ⟨same, held, action, present, leased, _, dispatching, _, number, started, _, row, rfl⟩ :=
    Database.complete_effect completed
  obtain rfl : stored = same := Option.mem_unique found present
  refine ⟨_, ?_, rfl⟩
  exact {
    dispatching
    row := ⟨_, _, _, by rw [row, state]⟩
    attempts := ⟨held, _, leased, conclusion, by rw [number]⟩
    called := by simp [started, called] }

theorem concludeAction_effect (found : db.action? actionId = some stored)
    (concluded : concludeAction db actionId previous lease outcome occurredAt = some after) :
    ∃ updated, stored.Concluded outcome updated ∧ after = db.storeAction actionId updated := by
  cases outcome with
  | succeeded result receiptReconciled => exact complete_concluded found rfl rfl (by simp) concluded
  | failed reasonCode => exact complete_concluded found rfl rfl (by simp) concluded
  | outcomeUnknown reasonCode => exact complete_concluded found rfl rfl (by simp) concluded
  | preCallExhausted =>
      obtain ⟨same, held, action, present, leased, _, dispatching, number, uncalled, _, row, rfl⟩ :=
        Database.failExhaustedStalePreCall_effect concluded
      obtain rfl : stored = same := Option.mem_unique found present
      refine ⟨_, ?_, rfl⟩
      exact {
        dispatching
        row := ⟨_, stored.action.result, _, row⟩
        attempts := ⟨held, _, leased, rfl, by rw [number]⟩
        called := by simp [uncalled] }

end ExternalActionDispatcher

/-- An action was ended together with its step, or together with its whole run. -/
inductive WriteConcluded (db : Database) (actionId : String) (outcome : WriteOutcome) :
    Database → Prop where
  | step {stored updated : StoredAction} {before step : RunStep}
      {stepTransitions : List StepStateTransition} {audits : List AuditEvent}
      (found : db.action? actionId = some stored) (concluded : stored.Concluded outcome updated)
      (stepFound : db.step? stored.action.contract.stepId = some before)
      (advanced : before.Advanced outcome.stepCommand.1 step)
      (ordinary : outcome.reasonCode = none ∨ db.run.state ≠ .executing) :
      WriteConcluded db actionId outcome { db with
        actions := db.actions.set actionId updated
        steps := db.steps.set stored.action.contract.stepId step
        stepTransitions
        audits }
  | run {stored updated : StoredAction} {planHash : String} {failedStep : RunStep}
      {cleaned : Database} {audits : List AuditEvent} (found : db.action? actionId = some stored)
      (concluded : stored.Concluded outcome updated) (failed : outcome.reasonCode ≠ none)
      (cleanup : TerminalExecutionCleanupService.CleanedUp db planHash
        stored.action.contract.stepId (some actionId) failedStep cleaned) :
      WriteConcluded db actionId outcome { cleaned with
        actions := cleaned.actions.set actionId updated
        audits }

namespace ExternalActionDispatcher

variable {dispatcher : Dispatcher} {db after : Database} {actionId leaseOwner : String}
variable {previous : ExternalAction} {outcome : WriteOutcome} {occurredAt : Time} {step : RunStep}

theorem focal_kept (cleanup : TerminalExecutionCleanupService.CleanedUp db planHash stepId
      (some actionId) failedStep cleaned) : cleaned.action? actionId = db.action? actionId := by
  obtain ⟨_, _, _, _, _, cancelled, _⟩ := cleanup.closed
  refine cancelled.others actionId ?_
  intro listed
  obtain ⟨entry, member, same⟩ := List.mem_map.mp listed
  simp [TerminalExecutionCleanupService.cancellable, same] at member

theorem cleanupBeforeFailure_effect {cleanup : Option TerminalCleanup}
    (cleaned : cleanupBeforeFailure db actionId step stepId outcome occurredAt =
      .ok (cleanup, after)) :
    (cleanup = none ∧ after = db ∧ (outcome.reasonCode = none ∨ db.run.state ≠ .executing)) ∨
      ∃ terminal, cleanup = some terminal ∧ outcome.reasonCode ≠ none ∧
        TerminalExecutionCleanupService.CleanedUp db step.planHash stepId (some actionId)
          terminal.deniedStep after := by
  unfold cleanupBeforeFailure at cleaned
  split at cleaned
  · rename_i noReason
    simp only [pure_ok, Prod.mk.injEq] at cleaned
    exact .inl ⟨cleaned.1.symm, cleaned.2.symm, .inl noReason⟩
  · rename_i reasonCode reason
    split at cleaned
    · simp only [TerminalExecutionCleanupService.failOrdinary, bind_ok, pure_ok, Prod.exists,
        Prod.mk.injEq] at cleaned
      obtain ⟨terminal, _, accepted, rfl, rfl⟩ := cleaned
      exact .inr ⟨terminal, rfl, by simp [reason],
        TerminalExecutionCleanupService.failExecution_effect accepted⟩
    · rename_i finished
      simp only [pure_ok, Prod.mk.injEq] at cleaned
      exact .inl ⟨cleaned.1.symm, cleaned.2.symm, .inr finished⟩

theorem finalizeWriteOutcome_effect
    (finalized : finalizeWriteOutcome db actionId previous step leaseOwner outcome occurredAt =
      .ok after) (found : db.action? actionId = some stored) (unchanged : stored.action = previous)
    (stepFound : db.step? previous.contract.stepId = some step) :
    WriteConcluded db actionId outcome after := by
  subst unchanged
  simp only [finalizeWriteOutcome, bind_ok, require_ok, requireSome_ok, Prod.exists] at finalized
  obtain ⟨lease, _, _, _, cleanup, cleaned, cleanedUp, concludedDb, concluded,
    transition, transitioned, completed, _, _, _, rest⟩ := finalized
  obtain ⟨advanced, named, _⟩ := transitionStep_effect transitioned
  rcases cleanupBeforeFailure_effect cleanedUp with
    ⟨rfl, rfl, ordinary⟩ | ⟨terminal, rfl, failed, cleanup⟩
  · obtain ⟨updated, concludedAction, rfl⟩ := concludeAction_effect found concluded
    simp only [bind_ok, requireSome_ok, pure_ok] at rest
    obtain ⟨_, applied, rfl⟩ := rest
    obtain ⟨_, _, rfl⟩ := Database.applyStepTransition_current applied stepFound advanced named
    exact .step found concludedAction stepFound advanced ordinary
  · obtain ⟨updated, concludedAction, rfl⟩ :=
      concludeAction_effect ((focal_kept cleanup).trans found) concluded
    simp only [bind_ok, require_ok, pure_ok] at rest
    obtain ⟨_, _, rfl⟩ := rest
    exact .run found concludedAction failed cleanup

theorem requireUnchanged_effect (accepted : requireUnchanged db actionId previous = .ok done) :
    ∃ stored, db.action? actionId = some stored ∧ stored.action = previous := by
  simp only [requireUnchanged, bind_ok, require_ok, requireSome_ok] at accepted
  exact accepted

theorem sealedWriteStep_effect (sealed : sealedWriteStep db previous = .ok step) :
    db.step? previous.contract.stepId = some step ∧ step.effect = .write := by
  simp only [sealedWriteStep, bind_ok, require_ok, requireSome_ok, pure_ok] at sealed
  obtain ⟨_, found, _, bound, rfl⟩ := sealed
  exact ⟨found, bound.2.2⟩

theorem writeCompletionContext_effect
    (context : writeCompletionContext db previous stepStates = .ok step) :
    db.step? previous.contract.stepId = some step := by
  simp only [writeCompletionContext, bind_ok, require_ok, pure_ok] at context
  obtain ⟨_, sealed, _, _, rfl⟩ := context
  exact (sealedWriteStep_effect sealed).1

theorem completeDelivery_effect
    (delivered : completeDelivery dispatcher db actionId previous leaseOwner receiptId
      status occurredAt =
      .ok after) : ∃ outcome, outcome.reasonCode = none ∧
        WriteConcluded db actionId outcome after := by
  simp only [completeDelivery, bind_ok, require_ok, requireSome_ok] at delivered
  obtain ⟨_, unchanged, step, context, _, _, _, _, finalized⟩ := delivered
  obtain ⟨stored, found, same⟩ := requireUnchanged_effect unchanged
  exact ⟨_, rfl, finalizeWriteOutcome_effect finalized found same
    (writeCompletionContext_effect context)⟩

theorem reconcileDurableReceipt_effect
    (reconciled : reconcileDurableReceipt dispatcher db actionId previous leaseOwner occurredAt =
      .ok result) :
    result = none ∨ ∃ after outcome, result = some after ∧ outcome.reasonCode = none ∧
      WriteConcluded db actionId outcome after := by
  simp only [reconcileDurableReceipt, bind_ok] at reconciled
  obtain ⟨_, unchanged, step, context, receipt, _, rest⟩ := reconciled
  obtain ⟨stored, found, same⟩ := requireUnchanged_effect unchanged
  split at rest
  · exact .inl (pure_ok.mp rest).symm
  · simp only [bind_ok, pure_ok] at rest
    obtain ⟨after, finalized, rfl⟩ := rest
    exact .inr ⟨after, _, rfl, rfl,
      finalizeWriteOutcome_effect finalized found same (writeCompletionContext_effect context)⟩

theorem completeFailure_effect {outcomeUnknown : Bool}
    (completed : completeFailure db actionId previous leaseOwner reasonCode
      outcomeUnknown occurredAt = .ok result) :
    result = none ∨ ∃ after, result = some after ∧ WriteConcluded db actionId
      (if outcomeUnknown then .outcomeUnknown reasonCode else .failed reasonCode) after := by
  unfold completeFailure at completed
  split at completed
  · exact .inl (pure_ok.mp completed).symm
  · simp only [bind_ok, pure_ok] at completed
    obtain ⟨_, unchanged, step, context, after, finalized, rfl⟩ := completed
    obtain ⟨stored, found, same⟩ := requireUnchanged_effect unchanged
    exact .inr ⟨after, rfl,
      finalizeWriteOutcome_effect finalized found same (writeCompletionContext_effect context)⟩

/-- A stale action was released for another dispatch. -/
structure ActionReleased (db : Database) (actionId : String)
    (stored updated : StoredAction) : Prop where
  found : db.action? actionId = some stored
  executing : db.run.state = .executing
  dispatching : stored.action.state = .dispatching
  row : ∃ occurredAt, updated.action.toExternalActionRow =
    stored.settledRow .dispatchReserved occurredAt
  attempts : ∃ lease release completion, stored.action.lease = some lease ∧
    completion.conclusion = RetryRelease.conclusion release ∧
    (release = .providerRetry ↔ stored.action.call ≠ none) ∧
    updated.attempts = stored.concludeAttempt lease.attemptNumber completion

theorem releaseStale_effect
    (released : releaseStale db actionId previous occurredAt release = some after) :
    ∃ stored updated, ActionReleased db actionId stored updated ∧
      after = db.storeAction actionId updated := by
  simp only [releaseStale, bind, Option.bind_eq_some_iff] at released
  obtain ⟨_, _, released⟩ := released
  obtain ⟨stored, lease, action, found, held, _, dispatching, number, allowed, expired, row, rfl⟩ :=
    Database.releaseStaleForRetry_effect released
  refine ⟨stored, _, ?_, rfl⟩
  simp only [Database.retryAllowed, Bool.and_eq_true, decide_eq_true_eq] at allowed
  refine ⟨found, allowed.1.2, dispatching, ⟨occurredAt, row⟩, lease, release, _, held, rfl, ?_,
    by rw [number]⟩
  simp only [Database.releasable, Bool.and_eq_true] at expired
  cases release <;> cases called : stored.action.call <;> simp [called] at expired ⊢

theorem recoverStale_effect (recovered : recoverStale db actionId previous occurredAt = .ok after) :
    (∃ stored updated, ActionReleased db actionId stored updated ∧
        after = db.storeAction actionId updated) ∨
      ∃ outcome, outcome.reasonCode ≠ none ∧ WriteConcluded db actionId outcome after := by
  simp only [recoverStale, bind_ok, require_ok, requireSome_ok] at recovered
  obtain ⟨lease, _, _, _, decision, _, rest⟩ := recovered
  cases decision with
  | retryPreCall => exact .inl (releaseStale_effect (requireSome_ok.mp rest))
  | retryProviderIdempotent => exact .inl (releaseStale_effect (requireSome_ok.mp rest))
  | failPreCallExhausted | outcomeUnknown =>
      simp only [bind_ok] at rest
      obtain ⟨_, unchanged, step, context, finalized⟩ := rest
      obtain ⟨stored, found, same⟩ := requireUnchanged_effect unchanged
      exact .inr ⟨_, by simp [WriteOutcome.reasonCode],
        finalizeWriteOutcome_effect finalized found same (writeCompletionContext_effect context)⟩

theorem finalizeTerminalParentCall_effect {cancelledOnly : Bool}
    (finalized : finalizeTerminalParentCall dispatcher db actionId previous
      cancelledOnly occurredAt = .ok result) :
    result = none ∨ ∃ after outcome, result = some after ∧
      WriteConcluded db actionId outcome after := by
  unfold finalizeTerminalParentCall at finalized
  split at finalized
  · exact .inl (pure_ok.mp finalized).symm
  · split at finalized
    · exact .inl (pure_ok.mp finalized).symm
    · simp only [bind_ok, require_ok, requireSome_ok] at finalized
      obtain ⟨_, unchanged, lease, _, control, _, _, _, _, _, step, sealed, _, _, rest⟩ := finalized
      obtain ⟨stored, found, same⟩ := requireUnchanged_effect unchanged
      have stepFound := (sealedWriteStep_effect sealed).1
      split at rest
      · simp only [bind_ok] at rest
        obtain ⟨receipt, _, rest⟩ := rest
        split at rest
        · simp only [bind_ok, pure_ok] at rest
          obtain ⟨after, closed, rfl⟩ := rest
          exact .inr ⟨after, _, rfl, finalizeWriteOutcome_effect closed found same stepFound⟩
        · simp only [bind_ok, pure_ok] at rest
          obtain ⟨_, _, after, closed, rfl⟩ := rest
          exact .inr ⟨after, _, rfl, finalizeWriteOutcome_effect closed found same stepFound⟩
      · exact .inl (pure_ok.mp rest).symm

theorem recordRuntimeControlDenial_effect
    (recorded : recordRuntimeControlDenial db actionId leaseOwner error occurredAt = .ok after) :
    (∃ audits, after = { db with audits }) ∨ ∃ stored planHash failedStep cleaned audits,
      db.action? actionId = some stored ∧
      TerminalExecutionCleanupService.CleanedUp db planHash stored.action.contract.stepId
        none failedStep cleaned ∧ after = { cleaned with audits } := by
  unfold recordRuntimeControlDenial at recorded
  split at recorded
  · exact .inl ⟨db.audits, (pure_ok.mp recorded).symm⟩
  · split at recorded
    · exact .inl ⟨db.audits, (pure_ok.mp recorded).symm⟩
    · rename_i stored found
      simp only [bind_ok, requireSome_ok] at recorded
      obtain ⟨step, _, recorded⟩ := recorded
      split at recorded
      · simp only [TerminalExecutionCleanupService.failRuntimeControl, bind_ok, pure_ok,
          Prod.exists] at recorded
        obtain ⟨cleanup, cleaned, ⟨_, _, accepted⟩, rfl⟩ := recorded
        exact .inr ⟨stored, _, _, cleaned, _, found,
          TerminalExecutionCleanupService.failExecution_effect accepted, rfl⟩
      · exact .inl ⟨_, (pure_ok.mp recorded).symm⟩

end ExternalActionDispatcher

end MarketingAgents
