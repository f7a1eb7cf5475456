import MarketingAgents.Persistence.ActionRepository

namespace MarketingAgents

open Library

/-! # What each repository operation did when it had a result

One inversion lemma for every operation.  Later proofs use these and never
unfold the operations themselves.
-/

theorem ExternalAction.ofRow?_eq_some :
    ExternalAction.ofRow? row = some action ↔ action.toExternalActionRow = row := by
  constructor
  · exact ExternalAction.row_of_ofRow?
  · rintro rfl
    simp [ExternalAction.ofRow?, action.isValid]

namespace Database

variable {db after : Database} {snapshot : Option StoredAction}
  {actionId runId planHash leaseOwner : String}
variable {expectedVersion attemptNumber : Nat} {authority : ReleaseAuthority}

@[simp] theorem storeAction_action?_self
    (present : db.action? actionId = some stored) :
    (db.storeAction actionId updated).action? actionId = some updated :=
  Table.get?_set_self present

theorem storeAction_action?_ne {other : String} (differs : other ≠ actionId) :
    (db.storeAction actionId updated).action? other = db.action? other :=
  Table.get?_set_ne differs

theorem applyStepTransition_effect {runVersion stepVersion : Nat}
    (applied : db.applyStepTransition runVersion runState stepVersion stepState result =
      some after) :
    ∃ current, db.step? result.transition.stepId = some current ∧
      result.transition.expectedVersion = stepVersion ∧
      result.transition.previousState = some stepState ∧
      db.run.version = runVersion ∧ db.run.state = runState ∧
      current.version = stepVersion ∧ current.state = stepState ∧
      after = { db.storeStep result.transition.stepId { current with
          state := result.step.state
          updatedAt := result.step.updatedAt
          version := result.step.version
          terminalReasonCode := result.step.terminalReasonCode } with
        stepTransitions := db.stepTransitions ++ [result.transition] } := by
  simp only [applyStepTransition, bind, Option.bind_eq_some_iff,
    Option.guard_eq_some', exists_const, Option.pure_def, Option.some.injEq] at applied
  obtain ⟨matched, parent, current, found, expected, same⟩ := applied
  exact ⟨current, found, matched.1, matched.2, parent.1, parent.2, expected.1,
    expected.2, same.symm⟩

theorem applyStepTransition_actions {runVersion stepVersion : Nat}
    (applied : db.applyStepTransition runVersion runState stepVersion stepState result =
      some after) :
    after.actions = db.actions := by
  obtain ⟨_, _, _, _, _, _, _, _, rfl⟩ := applyStepTransition_effect applied
  rfl

theorem claimReserved_effect {claimedAt leaseExpiresAt : Time}
    (claimed : db.claimReserved snapshot actionId expectedVersion authority leaseOwner claimedAt
      leaseExpiresAt = some after) :
    ∃ current stored action, snapshot = some current ∧ db.action? actionId = some stored ∧
      authority.actionId = actionId ∧ authorityFitsCallMode authority ∧
      stored.action.version = expectedVersion ∧ stored.action.state = .dispatchReserved ∧
      db.releaseFence authority stored ∧
      current.action.deliveryAttemptCount + 1 ∉ stored.attemptNumbers ∧
      action.toExternalActionRow = { stored.action.toExternalActionRow with
        state := .dispatching
        lease := some {
          owner := leaseOwner
          attemptNumber := current.action.deliveryAttemptCount + 1
          claimedAt
          expiresAt := leaseExpiresAt }
        deliveryAttemptCount := current.action.deliveryAttemptCount + 1
        updatedAt := claimedAt
        version := stored.action.version + 1 } ∧
      after = db.storeAction actionId {
        action
        attempts := stored.attempts ++ [{
          attemptNumber := current.action.deliveryAttemptCount + 1
          idempotencySupport := current.action.contract.idempotencySupport
          leaseOwner
          claimedAt
          leaseExpiresAt
          call := none
          completion := none }] } := by
  simp only [claimReserved, bind, Option.bind_eq_some_iff, Option.guard_eq_some', exists_const,
    Option.pure_def, Option.some.injEq, ExternalAction.ofRow?_eq_some] at claimed
  obtain ⟨current, read, fits, _, stored, found, where_, action, row, fresh, same⟩ := claimed
  obtain ⟨version, state, _, fence⟩ := where_
  refine ⟨current, stored, action, read, found, fits.1, fits.2.2, version, state, fence, fresh, ?_,
    same.symm⟩
  rw [row, version]

theorem startStep_effect (started : db.startStep authority stepTransition = some after) :
    (stepTransition = none ∧ after = db) ∨
    ∃ result, stepTransition = some result ∧
      db.applyStepTransition authority.releasedRunVersion .executing authority.releasedStepVersion
        .ready result = some after := by
  cases stepTransition with
  | none => exact .inl ⟨rfl, by simpa [startStep] using started.symm⟩
  | some result => exact .inr ⟨result, rfl, started⟩

theorem startStep_keeps_actions (started : db.startStep authority stepTransition = some after) :
      after.actions = db.actions := by
  rcases startStep_effect started with ⟨_, rfl⟩ | ⟨result, _, applied⟩
  · rfl
  · obtain ⟨current, _, _, _, _, _, _, _, rfl⟩ := applyStepTransition_effect applied
    rfl

theorem markCallStarted_effect {startedAt callDeadlineAt : Time}
    (marked : db.markCallStarted snapshot actionId expectedVersion authority
      leaseOwner attemptNumber startedAt callDeadlineAt stepTransition = some after) :
    ∃ current currentLease stored lease action stepped, snapshot = some current ∧
      current.action.lease = some currentLease ∧ currentLease.attemptNumber = attemptNumber ∧
      db.action? actionId = some stored ∧ stored.action.lease = some lease ∧
      lease.attemptNumber = attemptNumber ∧ authority.actionId = actionId ∧
      startTransitionFits authority startedAt stepTransition ∧
      stored.action.version = expectedVersion ∧ stored.action.state = .dispatching ∧
      stored.action.call = none ∧ db.releaseFence authority stored ∧
      action.toExternalActionRow = { stored.action.toExternalActionRow with
        call := some { startedAt, deadlineAt := callDeadlineAt }
        updatedAt := startedAt
        version := stored.action.version + 1 } ∧
      db.startStep authority stepTransition = some stepped ∧
      stored.attempts.any (heldAttempt current.action.contract.idempotencySupport currentLease) ∧
      after = stepped.storeAction actionId {
        action
        attempts := stored.attempts.map fun attempt =>
          if heldAttempt current.action.contract.idempotencySupport currentLease attempt then
            { attempt with call := some { startedAt, deadlineAt := callDeadlineAt } }
          else attempt } := by
  simp only [markCallStarted, bind, Option.bind_eq_some_iff, Option.guard_eq_some', exists_const,
    Option.pure_def, Option.some.injEq, ExternalAction.ofRow?_eq_some] at marked
  obtain ⟨current, read, offered, currentLease, currentHeld, matched, stored, found, lease, held,
    where_, action, row, stepped, started, present, same⟩ := marked
  obtain ⟨version, state, _, number, _, unstarted, fence, _⟩ := where_
  refine ⟨current, currentLease, stored, lease, action, stepped, read, currentHeld,
    matched.2, found,
    held, number, offered.2.2.1, offered.2.2.2, version, state, unstarted, fence, ?_, started,
    present, same.symm⟩
  rw [row, version]

theorem cancelUnstartedAfterRelease_effect {occurredAt : Time}
    (cancelled : db.cancelUnstartedAfterRelease snapshot actionId runId planHash expectedVersion
      occurredAt reasonCode = some after) :
    ∃ current stored action, snapshot = some current ∧ db.action? actionId = some stored ∧
      reasonCode ∈ runtimeCancelReasons ∧
      current.action.version = expectedVersion ∧ stored.action.version = expectedVersion ∧
      stored.action.state = current.action.state ∧
      current.action.state ∈ [.dispatchReserved, .dispatching] ∧ stored.action.call = none ∧
      action.toExternalActionRow = { stored.settledRow .cancelled occurredAt with
        terminalReasonCode := some reasonCode } ∧
      (current.action.state = .dispatchReserved ∧
          after = db.storeAction actionId { action, attempts := stored.attempts } ∨
        current.action.state = .dispatching ∧
          stored.attempts.any (StoredAction.unstartedAttempt current.action.deliveryAttemptCount) ∧
          after = db.storeAction actionId {
            action
            attempts := stored.cancelAttempt current.action.deliveryAttemptCount occurredAt
              reasonCode }) := by
  simp only [cancelUnstartedAfterRelease, bind, Option.bind_eq_some_iff, Option.guard_eq_some',
    exists_const, ExternalAction.ofRow?_eq_some] at cancelled
  obtain ⟨allowed, current, read, offered, reservation, _, stored, found, where_,
    action, row, rest⟩ :=
    cancelled
  obtain ⟨_, _, version, _, live, _⟩ := offered
  obtain ⟨_, _, storedVersion, state, _, unstarted⟩ := where_
  refine ⟨current, stored, action, read, found, allowed, version, storedVersion, state, live,
    unstarted, row, ?_⟩
  split at rest
  · rename_i dispatching
    simp only [Option.bind_eq_some_iff, Option.guard_eq_some', exists_const, Option.pure_def,
      Option.some.injEq] at rest
    exact .inr ⟨dispatching, rest.1, rest.2.symm⟩
  · rename_i idle
    have reserved : current.action.state = .dispatchReserved := by simpa [idle] using live
    simp only [Option.pure_def, Option.some.injEq] at rest
    exact .inl ⟨reserved, rest.symm⟩

theorem complete_effect
    (completed : db.complete actionId expectedVersion leaseOwner attemptNumber outcome =
      some after) :
    ∃ stored lease action, db.action? actionId = some stored ∧ stored.action.lease = some lease ∧
      stored.action.version = expectedVersion ∧ stored.action.state = .dispatching ∧
      lease.owner = leaseOwner ∧ lease.attemptNumber = attemptNumber ∧ stored.action.call ≠ none ∧
      db.outcomeEvidence actionId stored.action outcome ∧
      action.toExternalActionRow = { stored.settledRow outcome.state outcome.occurredAt with
        result := outcome.result
        terminalReasonCode := outcome.reasonCode } ∧
      after = db.storeAction actionId {
        action
        attempts := stored.concludeAttempt attemptNumber {
          completedAt := outcome.occurredAt
          conclusion := outcome.conclusion
          reasonCode := outcome.reasonCode
          connectorReceiptId := outcome.result.map (·.receiptId) } } := by
  simp only [complete, bind, Option.bind_eq_some_iff, Option.guard_eq_some', exists_const,
    Option.pure_def, Option.some.injEq, ExternalAction.ofRow?_eq_some] at completed
  obtain ⟨stored, found, lease, held, ⟨version, state, owner, number, called, evidence⟩, action,
    row, same⟩ := completed
  exact ⟨stored, lease, action, found, held, version, state, owner, number, called, evidence, row,
    same.symm⟩

theorem releaseStaleForRetry_effect {occurredAt : Time}
    (released : db.releaseStaleForRetry actionId expectedVersion attemptNumber occurredAt release =
      some after) :
    ∃ stored lease action, db.action? actionId = some stored ∧ stored.action.lease = some lease ∧
      stored.action.version = expectedVersion ∧ stored.action.state = .dispatching ∧
      lease.attemptNumber = attemptNumber ∧ db.retryAllowed stored.action ∧
      releasable stored.action lease release occurredAt ∧
      action.toExternalActionRow = stored.settledRow .dispatchReserved occurredAt ∧
      after = db.storeAction actionId {
        action
        attempts := stored.concludeAttempt attemptNumber {
          completedAt := occurredAt
          conclusion := release.conclusion
          reasonCode := some release.reasonCode
          connectorReceiptId := none } } := by
  simp only [releaseStaleForRetry, bind, Option.bind_eq_some_iff,
    Option.guard_eq_some', exists_const,
    Option.pure_def, Option.some.injEq, ExternalAction.ofRow?_eq_some] at released
  obtain ⟨stored, found, lease, held, ⟨version, state, number, allowed, expired⟩,
    action, row, same⟩ :=
    released
  exact ⟨stored, lease, action, found, held, version, state, number, allowed, expired,
    row, same.symm⟩

theorem failExhaustedStalePreCall_effect {occurredAt : Time}
    (failed : db.failExhaustedStalePreCall actionId expectedVersion attemptNumber
      occurredAt reasonCode = some after) :
    ∃ stored lease action, db.action? actionId = some stored ∧ stored.action.lease = some lease ∧
      stored.action.version = expectedVersion ∧ stored.action.state = .dispatching ∧
      lease.attemptNumber = attemptNumber ∧ stored.action.call = none ∧
      stored.action.contract.deliveryAttemptLimit ≤ stored.action.deliveryAttemptCount ∧
      action.toExternalActionRow = { stored.settledRow .failed occurredAt with
        terminalReasonCode := some reasonCode } ∧
      after = db.storeAction actionId {
        action
        attempts := stored.concludeAttempt attemptNumber {
          completedAt := occurredAt
          conclusion := .failed
          reasonCode := some reasonCode
          connectorReceiptId := none } } := by
  simp only [failExhaustedStalePreCall, bind, Option.bind_eq_some_iff, Option.guard_eq_some',
    exists_const, Option.pure_def, Option.some.injEq, ExternalAction.ofRow?_eq_some] at failed
  obtain ⟨stored, found, lease, held, ⟨version, state, number, _, uncalled, exhausted⟩, action, row,
    same⟩ := failed
  exact ⟨stored, lease, action, found, held, version, state, number, uncalled, exhausted, row,
    same.symm⟩

end Database

end MarketingAgents
