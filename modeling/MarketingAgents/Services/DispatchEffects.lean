import MarketingAgents.Persistence.ExecutionControlEffects
import MarketingAgents.Services.ExternalActionDispatcher
import MarketingAgents.Services.TransitionEffects

namespace MarketingAgents

open Library

/-! # What a started provider call changed -/

namespace StoredAction

/-- A provider call of the action has been started at some time. -/
def called (stored : StoredAction) : Bool := stored.attempts.any (·.started)

variable {stored : StoredAction} {attempt : DispatchAttempt}

theorem number_le_of_fence (fence : stored.historyFence authority)
    (member : attempt ∈ stored.attempts) :
    attempt.attemptNumber ≤ stored.action.deliveryAttemptCount := by
  simp only [historyFence, Bool.and_eq_true, decide_eq_true_eq] at fence
  rw [← fence.1.1.2, maximumAttempt]
  have listed : attempt.attemptNumber ∈ stored.attemptNumbers := List.mem_map_of_mem member
  generalize stored.attemptNumbers = numbers at listed
  induction numbers with
  | nil => simp at listed
  | cons first rest ih =>
      rw [List.foldr_cons]
      rcases List.mem_cons.mp listed with same | later
      · exact same ▸ Nat.le_max_left _ _
      · exact Nat.le_trans (ih later) (Nat.le_max_right _ _)

end StoredAction

/-- The step rows after a call start: a first call starts the step, a retry
finds it executing. -/
inductive CallStep (stepId : String) (before : Table String RunStep) :
    Table String RunStep → Prop where
  | first {step started : RunStep} (found : before.get? stepId = some step)
      (advanced : step.Advanced .startReservedWrite started) :
      CallStep stepId before (before.set stepId started)
  | retry {step : RunStep} (found : before.get? stepId = some step)
      (executing : step.state = .executing) : CallStep stepId before before

/-- The action row and the attempt that a claim and a call start leave behind. -/
structure CallStarted (db : Database) (actionId : String) (authority : ReleaseAuthority)
    (stored updated : StoredAction) : Prop where
  found : db.action? actionId = some stored
  reserved : stored.action.state = .dispatchReserved
  fence : db.releaseFence authority stored
  action : ∃ lease call updatedAt, lease.attemptNumber = stored.action.deliveryAttemptCount + 1 ∧
    updated.action.toExternalActionRow = { stored.action.toExternalActionRow with
      state := .dispatching
      lease := some lease
      deliveryAttemptCount := lease.attemptNumber
      call := some call
      updatedAt
      version := stored.action.version + 2 } ∧
    updated.attempts = stored.attempts ++ [{
      attemptNumber := lease.attemptNumber
      idempotencySupport := stored.action.contract.idempotencySupport
      leaseOwner := lease.owner
      claimedAt := lease.claimedAt
      leaseExpiresAt := lease.expiresAt
      call := some call
      completion := none }]

namespace CallStarted

variable {db : Database} {actionId : String} {authority : ReleaseAuthority}
  {stored updated : StoredAction}

theorem called (started : CallStarted db actionId authority stored updated) : updated.called := by
  obtain ⟨_, _, _, _, _, attempts⟩ := started.action
  simp [StoredAction.called, attempts, DispatchAttempt.started]

end CallStarted

namespace ExternalActionDispatcher

variable {dispatcher : Dispatcher} {db after : Database} {actionId leaseOwner : String}
variable {claimedAt : Time} {authority : ReleaseAuthority} {stored : StoredAction}
variable {start : DispatchCallStart}

theorem callStartStepTransition_effect
    (offered : callStartStepTransition db authority claimedAt = .ok transition) :
    (authority.callMode = .providerRetry ∧ authority.stepState = .executing ∧ transition = none) ∨
      ∃ step result, db.step? authority.stepId = some step ∧ transition = some result ∧
        step.Advanced .startReservedWrite result.step ∧
        result.transition.stepId = authority.stepId := by
  unfold callStartStepTransition at offered
  cases mode : authority.callMode with
  | providerRetry =>
      simp only [mode, bind_ok, require_ok, pure_ok] at offered
      obtain ⟨_, witness, rfl⟩ := offered
      exact .inl ⟨rfl, witness.1, rfl⟩
  | firstCall =>
      simp only [mode, bind_ok, require_ok, requireSome_ok, pure_ok] at offered
      obtain ⟨_, _, step, found, _, _, result, transition, rfl⟩ := offered
      obtain ⟨advanced, named, _⟩ := transitionStep_effect transition
      exact .inr ⟨step, result, found, rfl, advanced, named⟩

theorem uncalled_iff_unconsumed {claimed : StoredAction} {attempt : DispatchAttempt}
    (attempts : claimed.attempts = stored.attempts ++ [attempt]) (unstarted : attempt.call = none)
    (fence : stored.historyFence authority) :
    (claimed.attempts.all fun earlier =>
      !(earlier.attemptNumber < stored.action.deliveryAttemptCount + 1 && earlier.started)) =
      !stored.called := by
  have last : attempt.started = false := by simp [DispatchAttempt.started, unstarted]
  rw [attempts, List.all_append, StoredAction.called, List.not_any_eq_all_not]
  simp only [List.all_cons, last, Bool.and_false, Bool.not_false, List.all_nil, Bool.and_true]
  rw [Bool.eq_iff_iff, List.all_eq_true, List.all_eq_true]
  refine forall₂_congr fun earlier member => ?_
  have bound := StoredAction.number_le_of_fence fence member
  simp [Nat.lt_succ_of_le bound]

theorem mark_inserted (held : Database.heldAttempt support lease attempt)
    (fresh : lease.attemptNumber ∉ stored.attemptNumbers) :
    (stored.attempts ++ [attempt]).map (fun attempt =>
      if Database.heldAttempt support lease attempt then { attempt with call := some call }
      else attempt) = stored.attempts ++ [{ attempt with call := some call }] := by
  rw [List.map_append, List.map_cons, if_pos held, List.map_nil]
  congr 1
  rw [List.map_congr_left (g := id), List.map_id]
  intro earlier member
  have unheld : ¬ Database.heldAttempt support lease earlier := by
    intro holds
    simp only [Database.heldAttempt, Bool.and_eq_true, decide_eq_true_eq] at holds
    exact fresh (holds.1.1.1.1.1.1 ▸ List.mem_map_of_mem member)
  simp [unheld]

theorem startStep_callStep (started : db.startStep authority transition = some stepped)
    (offered : callStartStepTransition db authority claimedAt = .ok transition)
    (released : db.stepReleased authority) :
    ∃ steps stepTransitions, stepped = { db with steps, stepTransitions } ∧
      CallStep authority.stepId db.steps steps := by
  rcases callStartStepTransition_effect offered with ⟨_, executing, rfl⟩ |
    ⟨step, result, found, rfl, advanced, named⟩
  · obtain rfl : db = stepped := Option.some.inj started
    refine ⟨db.steps, db.stepTransitions, rfl, ?_⟩
    unfold Database.stepReleased at released
    cases found : db.step? authority.stepId with
    | none => simp [found] at released
    | some step =>
        simp only [found, Bool.and_eq_true, decide_eq_true_eq] at released
        exact .retry found (released.1.2.trans executing)
  · obtain ⟨_, _, rfl⟩ := Database.applyStepTransition_current started found advanced named
    exact ⟨_, _, rfl, .first found advanced⟩

theorem startAdmitted_effect (found : db.action? actionId = some stored)
    (started : startAdmitted dispatcher db actionId leaseOwner stored authority claimedAt =
      .ok (start, after)) :
    ∃ control window charged updated steps stepTransitions rateWindows audits,
      db.control = some control ∧ control.window = some window ∧ control.cancelRequest = none ∧
      db.run.state = .executing ∧ CallStarted db actionId authority stored updated ∧
      CallStep authority.stepId db.steps steps ∧
      Database.chargeLogicalCall (!stored.called) control .tool = .ok charged ∧
      after = { db with
        rateWindows
        control := some { charged with
          updatedAt := claimedAt
          version := control.version + 1 }
        steps
        stepTransitions
        actions := db.actions.set actionId updated
        audits } := by
  simp only [startAdmitted, bind_ok, require_ok, requireSome_ok, pure_ok, Prod.exists,
    Prod.mk.injEq] at started
  obtain ⟨_, claim, claimed, claimedFound, _, _, _, _, permit, permitted, permits,
    transition, offered, _, marked, final, _, rfl, rfl⟩ := started
  obtain ⟨current, same, action, read, present, _, _, _, reserved, fence, fresh, row, rfl⟩ :=
    Database.claimReserved_effect claim
  obtain rfl : stored = same := Option.mem_unique found present
  obtain rfl := Option.some.inj read
  have released := fence
  simp only [Database.releaseFence, Bool.and_eq_true] at released
  rw [Database.storeAction_action?_self present, Option.some.injEq] at claimedFound
  have claimedAttempts := congrArg StoredAction.attempts claimedFound
  have claimedRow := (congrArg (·.action.toExternalActionRow) claimedFound).symm.trans row
  obtain ⟨control, window, step, claimedAgain, charged, rateWindows, controlIs, opened,
    uncancelled, _, executing, _, _, claimedPresent, _, consumed, charge, rfl⟩ :=
    Database.reserveDeliveryCall_effect permits
  obtain rfl : claimed = claimedAgain := by
    rw [Database.storeAction_action?_self present, claimedFound] at claimedPresent
    exact Option.some.inj claimedPresent
  obtain ⟨snapshot, lease, marking, _, started, stepped, snapshotIs, held, _, markingFound, _,
    _, _, _, _, _, _, _, markedRow, stepStarted, _, rfl⟩ := Database.markCallStarted_effect marked
  obtain rfl : claimed = marking := Option.mem_unique claimedPresent markingFound
  obtain rfl : claimed = snapshot := Option.mem_unique claimedPresent snapshotIs
  obtain ⟨steps, stepTransitions, rfl, callStep⟩ :=
    startStep_callStep stepStarted offered released.1.1.1.2
  rw [claimedRow] at held markedRow
  obtain rfl := Option.some.inj held
  have support : claimed.action.contract.idempotencySupport =
      stored.action.contract.idempotencySupport := by rw [claimedRow]
  have count : claimed.action.deliveryAttemptCount = stored.action.deliveryAttemptCount + 1 := by
    rw [claimedRow]
  let lease : DispatchLease := {
    owner := leaseOwner
    attemptNumber := stored.action.deliveryAttemptCount + 1
    claimedAt
    expiresAt := claimedAt + dispatcher.leaseDuration }
  let call : CallAuthority := { startedAt := claimedAt, deadlineAt := permit.callDeadlineAt }
  let updated : StoredAction := {
    action := started
    attempts := stored.attempts ++ [{
      attemptNumber := lease.attemptNumber
      idempotencySupport := stored.action.contract.idempotencySupport
      leaseOwner := lease.owner
      claimedAt := lease.claimedAt
      leaseExpiresAt := lease.expiresAt
      call := some call
      completion := none }] }
  let audits := db.audits ++ ([actionEvent .dispatchClaimed actionId claimed.action,
    actionEvent .callStarted actionId final.action] ++ stepEvents transition.toList)
  refine ⟨control, window, charged, updated, steps, stepTransitions, rateWindows, audits,
    controlIs, opened,
    uncancelled, executing, ⟨found, reserved, fence, lease, call, claimedAt, rfl, markedRow, rfl⟩,
    callStep, ?_, ?_⟩
  · rw [consumed, count, uncalled_iff_unconsumed claimedAttempts.symm rfl released.1.2] at charge
    exact charge
  · simp only [Database.appendAudits, Database.storeAction, Table.set_set,
      ← claimedAttempts, support]
    rw [mark_inserted (by simp [Database.heldAttempt]) fresh]

theorem startAdmitted_tool (found : db.action? actionId = some stored)
    (started : startAdmitted dispatcher db actionId leaseOwner stored authority claimedAt =
      .ok (start, after)) :
    ∃ step, db.step? stored.action.contract.stepId = some step ∧
      step.runtimePolicy.attemptKind = .tool := by
  simp only [startAdmitted, bind_ok, require_ok, requireSome_ok, pure_ok, Prod.exists,
    Prod.mk.injEq] at started
  obtain ⟨_, claim, claimed, claimedFound, _, _, _, _, permit, permitted, permits, _⟩ := started
  obtain ⟨current, same, action, _, present, _, _, _, _, _, _, row, rfl⟩ :=
    Database.claimReserved_effect claim
  obtain rfl : stored = same := Option.mem_unique found present
  rw [Database.storeAction_action?_self present, Option.some.injEq] at claimedFound
  have contract : claimed.action.contract = stored.action.contract := by
    rw [← claimedFound, row]
  obtain ⟨_, _, step, _, _, _, _, _, _, _, _, stepFound, deliverable, _⟩ :=
    Database.reserveDeliveryCall_effect permits
  rw [contract] at stepFound
  simp only [Database.deliverableStep, Bool.and_eq_true, decide_eq_true_eq] at deliverable
  exact ⟨step, stepFound, deliverable.1.1.2⟩

theorem admission_effect (admitted : admission dispatcher db actionId action = .ok authority) :
    db.getReleaseAuthority actionId = some authority ∧ authority.stepId = action.contract.stepId ∧
      db.run.approvalRequired = some true := by
  simp only [admission, requireAuthority, bind_ok, require_ok, requireSome_ok, pure_ok] at admitted
  obtain ⟨_, _, _, _, _, _, _, _, _, found, _, ⟨_, _, bound⟩, _, parent, _, _, _, _, rfl⟩ :=
    admitted
  exact ⟨found, bound.2.2.2.1, parent.2.1⟩

theorem claimAndMarkCallStarted_effect
    (dispatched : claimAndMarkCallStarted dispatcher db actionId leaseOwner claimedAt =
      .ok (start, after)) :
    after = db ∨ ∃ stored authority, db.action? actionId = some stored ∧
      admission dispatcher db actionId stored.action = .ok authority ∧
      startAdmitted dispatcher db actionId leaseOwner stored authority claimedAt =
        .ok (start, after) := by
  simp only [claimAndMarkCallStarted, bind_ok, require_ok, requireSome_ok] at dispatched
  obtain ⟨stored, found, _, _, dispatched⟩ := dispatched
  split at dispatched
  · simp only [pure_ok, Prod.mk.injEq] at dispatched
    exact .inl dispatched.2.symm
  · simp only [bind_ok] at dispatched
    obtain ⟨authority, admitted, started⟩ := dispatched
    exact .inr ⟨stored, authority, found, admitted, started⟩

end ExternalActionDispatcher

end MarketingAgents
