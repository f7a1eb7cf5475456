import MarketingAgents.Persistence.ApprovalOperations

namespace MarketingAgents

open Library

/-! # What each approval operation leaves as it was

Every operation but a release keeps all reservations; a release reserves exactly
the members of its set.
-/

namespace ApprovalLedger

variable {canonical : CanonicalForms} {ledger after : ApprovalLedger}
variable {requestId : String} {expectedVersion expectedActionVersion : Nat}

theorem getRequest_ok :
    ledger.getRequest canonical requestId code message = .ok stored ↔
      ∃ record current, ledger.requests.get? requestId = some record ∧
        Hydrated canonical ledger requestId record ∧
        ledger.listCurrentSet canonical record.request.binding.planHash
          record.request.binding.proposalRevision = .ok current ∧
        stored = ledger.storedRequest requestId record := by
  simp only [getRequest, get, bind_ok, requireSome_ok]
  cases found : ledger.requests.get? requestId with
  | none =>
      constructor
      · rintro ⟨_, none, same⟩
        obtain rfl := pure_ok.mp none
        cases same
      · rintro ⟨_, _, impossible, _⟩
        cases impossible
  | some record =>
      simp only [bind_ok, hydrate_ok, pure_ok, Option.some.injEq]
      constructor
      · rintro ⟨_, ⟨_, ⟨hydrated, rfl⟩, current, listed, rfl⟩, same⟩
        exact ⟨record, current, rfl, hydrated, listed, (Option.some.inj same).symm⟩
      · rintro ⟨_, current, rfl, hydrated, listed, rfl⟩
        exact ⟨_, ⟨_, ⟨hydrated, rfl⟩, current, listed, rfl⟩, rfl⟩

theorem insertRequests_undelivering {requests : List (String × ActionApprovalRequest)}
    (inserted : insertRequests requests ledger = some after) : Undelivering ledger after := by
  induction requests generalizing ledger with
  | nil =>
      cases inserted
      exact .refl _
  | cons entry rest ih =>
      simp only [insertRequests, bind, Option.bind_eq_some_iff] at inserted
      obtain ⟨middle, first, remaining⟩ := inserted
      exact (insertRequest_effect first).1.trans (ih remaining)

theorem awaitApprovals_undelivering {requests : List (String × ActionApprovalRequest)}
    (waiting : awaitApprovals requests ledger = some after) : Undelivering ledger after := by
  induction requests generalizing ledger with
  | nil =>
      cases waiting
      exact .refl _
  | cons entry rest ih =>
      simp only [awaitApprovals, bind, Option.bind_eq_some_iff] at waiting
      obtain ⟨middle, first, remaining⟩ := waiting
      exact (updateAction_undelivering first (by simp) fun _ => ⟨rfl, rfl, rfl⟩).trans
        (ih remaining)

theorem storeInitialSet_undelivering {setId : String} {set : AuthorizationSetRecord}
    {requests : List (String × ActionApprovalRequest)}
    (stored : ledger.storeInitialSet setId set requests = some after) :
      Undelivering ledger after := by
  simp only [storeInitialSet, bind, Option.bind_eq_some_iff, Option.guard_eq_some',
    exists_const] at stored
  obtain ⟨⟨unselected, _⟩, sets, added, inserted, first, waiting⟩ := stored
  have known := Table.get?_insert added
  have opened : Undelivering ledger
      { ledger with sets := sets, head := some (initialHead setId set) } := by
    refine Retains.undelivering { Retains.refl ledger with head := ?_, sets := ?_ } rfl
    · intro head selected
      cases unselected.symm.trans selected
    · intro other found lookup
      have differs : other ≠ setId := by
        rintro rfl
        cases known.1.symm.trans lookup
      exact ⟨found, by rw [known.2, if_neg differs]; exact lookup, fun _ => rfl⟩
  exact (opened.trans (insertRequests_undelivering first)).trans
    (awaitApprovals_undelivering waiting)

theorem addInitialSetOrGet_undelivering {requests : List (String × ActionApprovalRequest)}
    (added : ledger.addInitialSetOrGet canonical requests = .ok after) :
      Undelivering ledger after := by
  simp only [addInitialSetOrGet, bind_ok, Prod.exists] at added
  obtain ⟨_, _, _, _, _, first, _, _, _, _, _, _, _, _, _, _, _, rest⟩ := added
  split at rest
  · simp only [bind_ok, pure_ok] at rest
    obtain ⟨_, _, _, _, _, _, rfl⟩ := rest
    exact .refl ledger
  · simp only [bind_ok] at rest
    obtain ⟨_, _, rest⟩ := rest
    split at rest
    · simp only [bind_ok, pure_ok] at rest
      obtain ⟨_, _, rfl⟩ := rest
      exact .refl ledger
    · rename_i stored
      simp only [bind_ok, pure_ok] at rest
      obtain ⟨_, _, rfl⟩ := rest
      exact storeInitialSet_undelivering stored

theorem storeDecision_undelivering
    (stored : ledger.storeDecision expectedVersion expectedActionVersion current decision =
      some after) :
    Undelivering ledger after := by
  simp only [storeDecision, bind, Option.bind_eq_some_iff, Option.guard_eq_some',
    exists_const] at stored
  obtain ⟨_, decisions, inserted, decided, action, request⟩ := stored
  have known := Table.get?_insert inserted
  have recorded : Undelivering ledger { ledger with decisions := decisions } := by
    refine Retains.undelivering { Retains.refl ledger with decisions := ?_ } rfl
    intro other found lookup
    have differs : other ≠ decision.requestId := by
      rintro rfl
      cases known.1.symm.trans lookup
    show decisions.get? other = some found
    rw [known.2, if_neg differs]
    exact lookup
  exact (recorded.trans (updateAction_undelivering action (by simp) fun _ => ⟨rfl, rfl, rfl⟩)).trans
    (updateRequest_effect request (by simp)).1

theorem recordDecision_undelivering
    (decided : ledger.recordDecision canonical expectedVersion expectedActionVersion decision =
      .ok after) :
    Undelivering ledger after := by
  simp only [recordDecision, bind_ok] at decided
  obtain ⟨current, _, _, _, _, _, rest⟩ := decided
  split at rest
  · simp only [bind_ok, requireSome_ok, pure_ok] at rest
    obtain ⟨_, stored, _, _, rfl⟩ := rest
    exact storeDecision_undelivering stored
  · simp only [bind_ok, pure_ok] at rest
    obtain ⟨_, _, rfl⟩ := rest
    exact .refl ledger

theorem storeExpiry_undelivering {reopenedAt : Time}
    (stored : ledger.storeExpiry current target expectedVersion expectedActionVersion reopenedAt =
      some after) (live : current.status ≠ .consumed) : Undelivering ledger after := by
  simp only [storeExpiry, reopenAction, bind, Option.bind_eq_some_iff] at stored
  obtain ⟨reopened, action, request⟩ := stored
  have kept : Undelivering ledger reopened := by
    split at action
    · exact updateAction_undelivering action (by simp) fun _ => ⟨rfl, rfl, rfl⟩
    · exact updateAction_undelivering action (by simp) fun _ => ⟨rfl, rfl, rfl⟩
  exact kept.trans (updateRequest_effect request live).1

theorem markExpired_undelivering {expiredAt : Time}
    (expired : ledger.markExpired canonical requestId expectedVersion
      expectedActionVersion expiredAt = .ok after) : Undelivering ledger after := by
  simp only [markExpired, bind_ok] at expired
  obtain ⟨current, _, _, _, rest⟩ := expired
  split at rest
  · simp only [bind_ok, pure_ok] at rest
    obtain ⟨_, _, rfl⟩ := rest
    exact .refl ledger
  · simp only [bind_ok, require_ok, requireSome_ok, pure_ok] at rest
    obtain ⟨_, ⟨_, live, _⟩, _, _, _, stored, _, _, rfl⟩ := rest
    exact storeExpiry_undelivering stored fun consumed => by simp [consumed] at live

theorem renewExpired_undelivering
    (renewed : ledger.renewExpired canonical expectedVersion expectedActionVersion old replacementId
      replacement = .ok after) : Undelivering ledger after := by
  simp only [renewExpired, bind_ok, require_ok, requireSome_ok, pure_ok] at renewed
  obtain ⟨_, _, _, _, current, _, _, _, _, _, _, ⟨_, live, _⟩, _, stored, _, _, rfl⟩ := renewed
  simp only [storeRenewal, bind, Option.bind_eq_some_iff] at stored
  obtain ⟨inserted, added, expiry⟩ := stored
  exact (insertRequest_effect added).1.trans
    (storeExpiry_undelivering expiry fun consumed => by simp [consumed] at live)

theorem closeMember_undelivering (closed : ledger.closeMember command current stored = some after) :
      Undelivering ledger after := by
  simp only [closeMember, bind, Option.bind_eq_some_iff, Option.guard_eq_some',
    exists_const] at closed
  obtain ⟨_, rest⟩ := closed
  split at rest
  · cases rest
    exact .refl ledger
  · simp only [Option.bind_eq_some_iff, Option.guard_eq_some', exists_const] at rest
    obtain ⟨live, ⟨waiting, _⟩, cancelled, action, rest⟩ := rest
    have kept := updateAction_undelivering action (List.mem_cons_of_mem _ waiting) fun _ =>
      ⟨rfl, rfl, rfl⟩
    have unconsumed : current.status ≠ .consumed := by
      intro consumed
      simp [consumed] at live
    split at rest
    · exact kept.trans (updateRequest_effect rest (by simp)).1
    · simp only [Option.bind_eq_some_iff, Option.guard_eq_some', exists_const] at rest
      exact kept.trans (updateRequest_effect rest.2 unconsumed).1

theorem closeMembers_undelivering {currentRequests : List StoredActionApprovalRequest}
    (closed : closeMembers command currentRequests members ledger = some after) :
    Undelivering ledger after := by
  induction members generalizing ledger with
  | nil =>
      cases closed
      exact .refl _
  | cons member rest ih =>
      simp only [closeMembers, bind, Option.bind_eq_some_iff] at closed
      obtain ⟨_, _, _, _, _, first, remaining⟩ := closed
      exact (closeMember_undelivering first).trans (ih remaining)

theorem closeSteps_actions {db rows : Database} (closed : closeSteps command steps db = some rows) :
    rows.actions = db.actions := by
  induction steps generalizing db with
  | nil =>
      cases closed
      rfl
  | cons entry rest ih =>
      simp only [closeSteps] at closed
      split at closed
      · exact ih closed
      · simp only [bind, Option.bind_eq_some_iff] at closed
        obtain ⟨stepped, applied, remaining⟩ := closed
        exact (ih remaining).trans (Database.applyStepTransition_actions applied)

theorem storeClosure_undelivering {currentRequests : List StoredActionApprovalRequest}
    (closed : ledger.storeClosure command currentRequests = some after) :
      Undelivering ledger after := by
  simp only [storeClosure, bind, Option.bind_eq_some_iff] at closed
  obtain ⟨_, _, ended, run, rows, steps, members, all, stored⟩ := closed
  have same : rows.actions = ledger.rows.actions :=
    (closeSteps_actions steps).trans (Database.applyRunTransition_actions run)
  exact ((Undelivering.of_actions same).trans (closeMembers_undelivering all)).trans
    (storeSet_effect stored).1

theorem closeCurrentSet_undelivering
    (closed : ledger.closeCurrentSet canonical command = .ok after) :
      Undelivering ledger after := by
  simp only [closeCurrentSet, bind_ok, requireSome_ok, pure_ok] at closed
  obtain ⟨_, _, _, _, _, _, _, _, _, _, _, _, _, stored, _, _, _, _, rfl⟩ := closed
  exact storeClosure_undelivering stored

end ApprovalLedger

/-- What a delivery operation makes of a released action. -/
structure StoredAction.Delivered (stored updated : StoredAction) : Prop where
  live : stored.action.state ∈ [.dispatchReserved, .dispatching]
  lasting : updated.action.state ∈ ApprovalLedger.reservedStates
  contract : updated.action.contract = stored.action.contract
  createdAt : updated.action.createdAt = stored.action.createdAt
  reservation : updated.action.reservation = stored.action.reservation
  version : updated.action.version = stored.action.version + 1

theorem StoredAction.Delivered.of_row {stored : StoredAction} {action : ExternalAction}
    {attempts : List DispatchAttempt} {target : ExternalActionRow}
    (row : action.toExternalActionRow = target)
    (live : stored.action.state ∈ [.dispatchReserved, .dispatching])
    (lasting : target.state ∈ ApprovalLedger.reservedStates)
    (contract : target.contract = stored.action.contract)
    (createdAt : target.createdAt = stored.action.createdAt)
    (reservation : target.reservation = stored.action.reservation)
    (version : target.version = stored.action.version + 1) :
      stored.Delivered { action, attempts } := by
  subst row
  exact ⟨live, lasting, contract, createdAt, reservation, version⟩

/-- The step rows are unchanged or moved by one consistent transition. -/
def Database.StepMoved (db after : Database) : Prop :=
  (after.steps = db.steps ∧ after.stepTransitions = db.stepTransitions) ∨
    ∃ runVersion runState stepVersion stepState result stepped,
      db.applyStepTransition runVersion runState stepVersion stepState result = some stepped ∧
      result.consistent ∧ after.steps = stepped.steps ∧
      after.stepTransitions = stepped.stepTransitions

/-- One delivery operation changed its action and at most the step of the action. -/
structure Database.ActionDelivered (db : Database) (actionId : String)
    (stored updated : StoredAction) (after : Database) : Prop where
  found : db.action? actionId = some stored
  delivered : stored.Delivered updated
  actions : after.actions = db.actions.set actionId updated
  steps : db.StepMoved after
  run : after.run = db.run
  runTransitions : after.runTransitions = db.runTransitions

namespace Database

variable {db after : Database} {actionId : String} {stored : StoredAction}

theorem ActionDelivered.store {action : ExternalAction} {attempts : List DispatchAttempt}
    (found : db.action? actionId = some stored)
    (delivered : stored.Delivered { action, attempts }) :
    db.ActionDelivered actionId stored { action, attempts }
      (db.storeAction actionId { action, attempts }) :=
  ⟨found, delivered, rfl, .inl ⟨rfl, rfl⟩, rfl, rfl⟩

theorem ActionDelivered.start (found : db.action? actionId = some stored)
    (delivered : stored.Delivered updated)
    (started : db.startStep authority stepTransition = some stepped)
    (consistent : ∀ result, stepTransition = some result → result.consistent) :
    db.ActionDelivered actionId stored updated (stepped.storeAction actionId updated) := by
  rcases startStep_effect started with ⟨_, rfl⟩ | ⟨result, offered, moved⟩
  · exact ⟨found, delivered, rfl, .inl ⟨rfl, rfl⟩, rfl, rfl⟩
  · have stepMoved : db.StepMoved (stepped.storeAction actionId updated) :=
      .inr ⟨_, _, _, _, result, stepped, moved, consistent result offered, rfl, rfl⟩
    obtain ⟨_, _, _, _, _, _, _, _, rfl⟩ := applyStepTransition_effect moved
    exact ⟨found, delivered, rfl, stepMoved, rfl, rfl⟩

theorem complete_delivered {expectedVersion attemptNumber : Nat}
    (completed : db.complete actionId expectedVersion leaseOwner attemptNumber outcome =
      some after) :
    ∃ stored updated, db.ActionDelivered actionId stored updated after := by
  obtain ⟨stored, lease, action, found, _, _, state, _, _, _, _, row, rfl⟩ :=
    complete_effect completed
  refine ⟨stored, _, .store found (.of_row row (by simp [state]) ?_ rfl rfl rfl rfl)⟩
  cases outcome <;> simp [StoredAction.settledRow, CallOutcome.state, ApprovalLedger.reservedStates]

end Database

/-- Every delivery operation works on a released action and leaves it released. -/
theorem DeliveryOperation.apply_delivered
    {operation : DeliveryOperation} (downstream : operation.downstream db)
    (applied : operation.apply actionId db = some after) :
    ∃ stored updated, db.ActionDelivered actionId stored updated after := by
  cases operation with
  | claimReserved =>
      obtain ⟨_, stored, action, _, found, _, _, _, state, _, _, row, rfl⟩ :=
        Database.claimReserved_effect applied
      exact ⟨stored, _, .store found (.of_row row (by simp [state])
        (by simp [ApprovalLedger.reservedStates]) rfl rfl rfl rfl)⟩
  | markCallStarted snapshot expectedVersion authority leaseOwner attemptNumber startedAt
      callDeadlineAt stepTransition =>
      obtain ⟨_, _, stored, _, action, stepped, _, _, _, found, _, _, _, _, _, state, _, _,
        row, started, _, rfl⟩ := Database.markCallStarted_effect applied
      exact ⟨stored, _, .start found (.of_row row (by simp [state])
        (by simp [state, ApprovalLedger.reservedStates]) rfl rfl rfl rfl) started
            fun result offered =>
          downstream.2.2 result offered⟩
  | completeSucceeded => exact Database.complete_delivered applied
  | completeFailed => exact Database.complete_delivered applied
  | markOutcomeUnknown => exact Database.complete_delivered applied
  | cancelUnstartedAfterRelease =>
      obtain ⟨_, stored, action, _, found, _, _, _, same, live, _, row, outcome⟩ :=
        Database.cancelUnstartedAfterRelease_effect applied
      rw [← same] at live
      rcases outcome with ⟨_, rfl⟩ | ⟨_, _, rfl⟩
      all_goals exact ⟨stored, _, .store found (.of_row row live
        (by simp [StoredAction.settledRow, ApprovalLedger.reservedStates]) rfl rfl rfl rfl)⟩
  | releaseStaleForRetry =>
      obtain ⟨stored, _, action, found, _, _, state, _, _, _, row, rfl⟩ :=
        Database.releaseStaleForRetry_effect applied
      exact ⟨stored, _, .store found (.of_row row (by simp [state])
        (by simp [StoredAction.settledRow, ApprovalLedger.reservedStates]) rfl rfl rfl rfl)⟩
  | failExhaustedStalePreCall =>
      obtain ⟨stored, _, action, found, _, _, state, _, _, _, row, rfl⟩ :=
        Database.failExhaustedStalePreCall_effect applied
      exact ⟨stored, _, .store found (.of_row row (by simp [state])
        (by simp [StoredAction.settledRow, ApprovalLedger.reservedStates]) rfl rfl rfl rfl)⟩
  | elsewhere other => exact absurd rfl (downstream.1 other)

namespace ApprovalLedger

variable {canonical : CanonicalForms} {ledger after : ApprovalLedger}

theorem Applies.unreserving (applied : ledger.Applies canonical after operation)
    (unreleasing : ∀ command, operation ≠ .releaseCurrentSet command) :
      Unreserving ledger after := by
  cases operation with
  | addInitialSet => exact (addInitialSetOrGet_undelivering applied).toUnreserving
  | recordDecision => exact (recordDecision_undelivering applied).toUnreserving
  | markExpired => exact (markExpired_undelivering applied).toUnreserving
  | renewExpired => exact (renewExpired_undelivering applied).toUnreserving
  | releaseCurrentSet command => exact absurd rfl (unreleasing command)
  | closeCurrentSet => exact (closeCurrentSet_undelivering applied).toUnreserving
  | deliver actionId operation =>
      obtain ⟨downstream, rows, stepped, rfl⟩ := applied
      obtain ⟨stored, updated, moved⟩ := operation.apply_delivered downstream stepped
      apply Unreserving.of_rows
      rw [moved.actions]
      exact .of_set moved.found (Prod.ext moved.delivered.contract moved.delivered.reservation)
  | advanceRun =>
      obtain ⟨_, rows, stepped, rfl⟩ := applied
      exact .of_rows (.of_eq (Database.applyRunTransition_actions stepped))
  | advanceStep =>
      obtain ⟨_, rows, stepped, rfl⟩ := applied
      exact .of_rows (.of_eq (Database.applyStepTransition_actions stepped))

end ApprovalLedger

end MarketingAgents
