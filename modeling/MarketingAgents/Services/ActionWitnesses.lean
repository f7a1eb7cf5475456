import MarketingAgents.Services.ActionTimeline

namespace MarketingAgents

open Library

/-! # The services witness what they do to an action -/

variable {db middle after : Database} {actionId requestId : String} {events : List ActionAudit}
variable {expectedVersion : Nat} {occurredAt : Time}

theorem Database.reload_ok :
    db.reload actionId = .ok stored ↔ db.action? actionId = some stored := requireSome_ok

theorem advanceSteps_actions {results : List StepTransitionResult}
    (advanced : advanceSteps run command context occurredAt code message selected db =
      .ok (results, after)) : after.actions = db.actions := by
  induction selected generalizing db results with
  | nil =>
      cases advanced
      rfl
  | cons entry rest ih =>
      simp only [advanceSteps, Database.advanceStep, bind_ok, requireSome_ok, pure_ok, Prod.exists,
        Prod.mk.injEq] at advanced
      obtain ⟨_, _, ⟨_, _, _, applied, rfl, rfl⟩, _, _, remaining, _, rfl⟩ := advanced
      exact (ih remaining).trans (Database.applyStepTransition_actions applied)

theorem Database.advanceRun_actions {result : RunTransitionResult}
    (advanced : db.advanceRun command context occurredAt code message = .ok (result, after)) :
    after.actions = db.actions := by
  obtain ⟨_, rfl⟩ := advanceRun_effect advanced
  rfl

theorem Database.updateAwaiting_row {change : ExternalActionRow → ExternalActionRow}
    (changed : db.updateAwaiting actionId expectedVersion states change = some after) :
    ∃ stored updated, db.action? actionId = some stored ∧ stored.action.state ∈ states ∧
      updated.action.toExternalActionRow = change { stored.action.toExternalActionRow with
        version := stored.action.version + 1 } ∧
      after = db.storeAction actionId updated := by
  simp only [updateAwaiting, bind, Option.bind_eq_some_iff, Option.guard_eq_some', exists_const,
    Option.pure_def, Option.some.injEq, ExternalAction.ofRow?_eq_some] at changed
  obtain ⟨stored, found, ⟨_, state, _⟩, action, row, rfl⟩ := changed
  exact ⟨stored, { stored with action }, found, state, row, rfl⟩

theorem Database.reopenApproved_audits
    (reopened : db.reopenApproved request expectedVersion occurredAt = some middle)
    (left : after.actions = middle.actions) (built : reopenedEvents request after = .ok events) :
    Audits actionId db events after := by
  unfold reopenApproved at reopened
  unfold reopenedEvents at built
  by_cases approved : request.status = .approved
  · rw [if_pos approved] at reopened built
    obtain ⟨stored, updated, found, state, row, rfl⟩ := updateAwaiting_row reopened
    simp only [bind_ok, reload_ok, pure_ok] at built
    obtain ⟨again, lookup, event, witness, rfl⟩ := built
    have now : after.action? request.actionId = some updated := by
      rw [action?, left]
      exact Table.get?_set_self found
    obtain rfl := Option.mem_unique lookup now
    refine .stored_row found left (AuditEventFactory.actionAwaitingApproval_witnesses witness ?_ ?_)
    · rw [row]
    · simpa using state
  · rw [if_neg approved] at reopened built
    simp only [bind, Option.bind_eq_some_iff, Option.guard_eq_some', exists_const, Option.pure_def,
      Option.some.injEq] at reopened
    obtain ⟨_, _, _, rfl⟩ := reopened
    obtain rfl := pure_ok.mp built
    exact .nothing left

theorem Database.markExpired_audits {expectedActionVersion : Nat}
    (expired : db.markExpired requestId expectedVersion expectedActionVersion occurredAt =
      some after)
    (current : db.approvalRequests.get? requestId = some request)
    (built : reopenedEvents request after = .ok events) : Audits actionId db events after := by
  simp only [markExpired, bind, Option.bind_eq_some_iff, Option.guard_eq_some', exists_const,
    Option.pure_def, Option.some.injEq] at expired
  obtain ⟨same, found, _, reopened, reopens, rfl⟩ := expired
  obtain rfl := Option.mem_unique current found
  exact reopenApproved_audits reopens rfl built

theorem Database.renewExpired_audits {expectedActionVersion : Nat} {expiresAt : Time}
    (renewed : db.renewExpired requestId replacementId expectedVersion
      expectedActionVersion occurredAt expiresAt = some after)
    (current : db.approvalRequests.get? requestId = some request)
    (built : reopenedEvents request after = .ok events) : Audits actionId db events after := by
  simp only [renewExpired, bind, Option.bind_eq_some_iff, Option.guard_eq_some', exists_const,
    Option.pure_def, Option.some.injEq] at renewed
  obtain ⟨same, found, _, _, _, reopened, reopens, rfl⟩ := renewed
  obtain rfl := Option.mem_unique current found
  exact reopenApproved_audits reopens rfl built

theorem ApprovalRecordService.markExpired_audits
    (expired : markExpired db requestId expectedVersion occurredAt = .ok after)
    (built : expiryEvents db after requestId = .ok events) : Audits actionId db events after := by
  simp only [markExpired, bind_ok, requireSome_ok] at expired
  obtain ⟨current, found, stored, _, expired⟩ := expired
  simp only [expiryEvents, bind_ok, requireSome_ok] at built
  obtain ⟨again, same, built⟩ := built
  obtain rfl := Option.mem_unique found same
  split at expired
  · rename_i already
    simp only [bind_ok, pure_ok] at expired
    obtain ⟨_, _, rfl⟩ := expired
    simp only [reopenedEvents, already] at built
    obtain rfl := pure_ok.mp built
    exact .nothing rfl
  · exact Database.markExpired_audits (requireSome_ok.mp expired) found built

theorem ApprovalRecordService.renewExpired_audits {expiresAt : Time}
    (renewed : renewExpired db requestId replacementId expectedVersion occurredAt expiresAt =
      .ok after)
    (built : expiryEvents db after requestId = .ok events) : Audits actionId db events after := by
  simp only [renewExpired, bind_ok, requireSome_ok] at renewed
  obtain ⟨current, found, stored, _, renewed⟩ := renewed
  simp only [expiryEvents, bind_ok, requireSome_ok] at built
  obtain ⟨again, same, built⟩ := built
  obtain rfl := Option.mem_unique found same
  exact Database.renewExpired_audits renewed found built

namespace ApprovalBoundaryService

theorem expireMembers_audits (expired : expireMembers occurredAt rows db = .ok after)
    (built : expiredEvents occurredAt rows db = .ok events) : Audits actionId db events after := by
  induction rows generalizing db events with
  | nil =>
      cases expired
      cases built
      exact .nothing rfl
  | cons row rest ih =>
      simp only [expireMembers, bind_ok, requireSome_ok] at expired
      obtain ⟨stored, found, first, one, remaining⟩ := expired
      simp only [expiredEvents, bind_ok, requireSome_ok, pure_ok] at built
      obtain ⟨_, again, _, same, current, request, own, mine, others, theirs, rfl⟩ := built
      obtain rfl := Option.mem_unique found again
      obtain rfl := Option.mem_unique one same
      exact (Database.markExpired_audits one request mine).append (ih remaining theirs)

theorem release_audits {newIds : String → ReleaseIds}
    (released : release db snapshot releaseHash newIds occurredAt = .ok after)
    (loaded : SnapshotOf db snapshot) (distinct : MembersDistinct db)
    (built : releaseEvents snapshot after = .ok events) : Audits actionId db events after := by
  obtain ⟨head, set, _, actions, current, _, same, _, _, _, changed⟩ :=
    (release_effect released loaded distinct).members
  obtain ⟨_, rfl⟩ := Prod.mk.inj (Option.mem_unique current loaded.current)
  have keys : snapshot.rows.map (·.member.actionId) = actions.map Prod.fst := by
    rw [same, ← loaded.members, List.map_map]
    rfl
  refine eventsOf_witnesses (fun row => row.member.actionId) (fun row => row.stored) built ?_
    (fun row listed => (loaded.loaded row listed).action) ?_ ?_
  · rw [keys, same]
    exact (distinct _ _ current).2
  · intro row listed ones mine
    simp only [bind_ok, Database.reload_ok, requireSome_ok, pure_ok, Prod.exists] at mine
    obtain ⟨reserved, lookup, consumed, _, useId, use, _, event, witness, rfl⟩ := mine
    exact ⟨reserved, lookup,
      .inr ⟨event, rfl, AuditEventFactory.actionDispatchReserved_witnesses witness⟩⟩
  · intro unlisted
    exact changed.others actionId (keys ▸ unlisted)

theorem closeMembers_others {rejecting : Bool}
    (closed : closeMembers rejecting occurredAt rows db = .ok after)
    (unlisted : actionId ∉ rows.map (·.member.actionId)) :
      after.action? actionId = db.action? actionId := by
  induction rows generalizing db with
  | nil =>
      cases closed
      rfl
  | cons row rest ih =>
      simp only [closeMembers, bind_ok, requireSome_ok] at closed
      obtain ⟨first, one, remaining⟩ := closed
      simp only [List.map_cons, List.mem_cons, not_or] at unlisted
      exact (ih remaining unlisted.2).trans (closeMember_others one unlisted.1)

theorem closeCurrentSet_others {rejecting : Bool}
    (closed : closeCurrentSet db snapshot command context rejecting occurredAt = .ok after)
    (unlisted : actionId ∉ snapshot.rows.map (·.member.actionId)) :
    after.action? actionId = db.action? actionId := by
  simp only [closeCurrentSet, bind_ok, pure_ok, Prod.exists] at closed
  obtain ⟨_, _, runAdvanced, _, _, rejects, _, _, cancels, _, closes, rfl⟩ := closed
  refine (closeMembers_others closes unlisted).trans ?_
  rw [Database.action?, advanceSteps_actions cancels, advanceSteps_actions rejects,
    Database.advanceRun_actions runAdvanced]
  rfl

theorem closeCurrentSet_audits {rejecting : Bool}
    (closed : closeCurrentSet db snapshot command context rejecting occurredAt = .ok after)
    (current : ∀ row ∈ snapshot.rows, db.action? row.member.actionId = some row.stored)
    (distinct : (snapshot.rows.map (·.member.actionId)).Nodup)
    (built : closureEvents snapshot supersessionReason after = .ok events) :
    Audits actionId db events after := by
  refine eventsOf_witnesses (fun row => row.member.actionId)
    (fun row => row.stored) built distinct current ?_ (closeCurrentSet_others closed)
  intro row listed ones mine
  simp only [bind_ok, Database.reload_ok, requireSome_ok] at mine
  obtain ⟨cancelled, lookup, terminal, _, mine⟩ := mine
  refine ⟨cancelled, lookup, ?_⟩
  split at mine
  · rename_i same
    exact .inl ⟨(pure_ok.mp mine).symm, same⟩
  · simp only [bind_ok, pure_ok] at mine
    obtain ⟨event, witness, rfl⟩ := mine
    exact .inr ⟨event, rfl, AuditEventFactory.actionCancelled_witnesses witness⟩

theorem snapshot_distinct (loaded : SnapshotOf db snapshot)
    (distinct : MembersDistinct db) : (snapshot.rows.map (·.member.actionId)).Nodup := by
  have members := (distinct _ _ loaded.current).2
  rwa [← loaded.members, List.map_map] at members

/-- An evaluation witnesses whatever it decides about an open set. -/
theorem evaluate_audits {newIds : String → ReleaseIds}
    {disposition : ApprovalBoundaryDisposition} (distinct : MembersDistinct db)
    (evaluated : evaluate db releaseHash newIds occurredAt = .ok (disposition, after))
    (built : evaluationEvents db occurredAt after = .ok events) :
      Audits actionId db events after := by
  simp only [evaluate, bind_ok] at evaluated
  obtain ⟨snapshot, loads, evaluated⟩ := evaluated
  simp only [evaluationEvents, bind_ok] at built
  obtain ⟨again, same, built⟩ := built
  obtain rfl := Except.ok.inj (loads.symm.trans same)
  have loaded := loadCurrent_effect loads
  cases status : snapshot.set.status with
  | released | rejected | cancelled =>
      simp only [status] at evaluated built
      obtain ⟨_, rfl⟩ := Prod.mk.inj (pure_ok.mp evaluated)
      obtain rfl := pure_ok.mp built
      exact .nothing rfl
  | superseded =>
      simp only [status] at evaluated
      cases evaluated
  | «open» =>
      simp only [status, bind_ok, require_ok] at evaluated
      simp only [status, if_pos, openBoundaryEvents] at built
      obtain ⟨_, _, evaluated⟩ := evaluated
      simp only [evaluateOpen] at evaluated
      by_cases rejected : snapshot.rows.any (·.request.status = .rejected)
      · simp only [if_pos rejected, bind_ok, pure_ok, Prod.mk.injEq] at evaluated built
        obtain ⟨_, closed, _, rfl⟩ := evaluated
        exact closeCurrentSet_audits closed (fun row listed => (loaded.loaded row listed).action)
          (snapshot_distinct loaded distinct) built
      · simp only [if_neg rejected] at evaluated built
        split at evaluated
        · rename_i stale
          simp only [bind_ok, pure_ok, Prod.mk.injEq] at evaluated
          obtain ⟨_, expired, _, rfl⟩ := evaluated
          rw [if_pos stale] at built
          exact expireMembers_audits expired built
        · rename_i fresh
          rw [if_neg fresh] at built
          split at evaluated
          · rename_i expired
            obtain ⟨_, rfl⟩ := Prod.mk.inj (pure_ok.mp evaluated)
            have undecided : snapshot.rows.any (·.request.status ≠ .approved) = true := by
              obtain ⟨row, listed, state⟩ := List.any_eq_true.mp expired
              refine List.any_eq_true.mpr ⟨row, listed, ?_⟩
              rw [of_decide_eq_true state]
              rfl
            rw [if_pos undecided] at built
            cases built
            exact .nothing rfl
          · split at evaluated
            · rename_i undecided
              obtain ⟨_, rfl⟩ := Prod.mk.inj (pure_ok.mp evaluated)
              rw [if_pos undecided] at built
              cases built
              exact .nothing rfl
            · rename_i approved
              simp only [bind_ok, pure_ok, Prod.mk.injEq] at evaluated
              obtain ⟨_, released, _, rfl⟩ := evaluated
              rw [if_neg approved] at built
              exact release_audits released loaded distinct built

end ApprovalBoundaryService

/-- A decision is witnessed before the boundary that it may cross. -/
theorem ApprovalDecisionService.decide_audits {approve : Bool} {newIds : String → ReleaseIds}
    (distinct : ∀ middle, ApprovalsChanged db middle →
      ApprovalBoundaryService.MembersDistinct middle)
    (accepted : decide db requestId decisionId approve releaseHash newIds occurredAt = .ok after)
    (built : decideEvents db requestId decisionId approve occurredAt after = .ok events) :
    Audits actionId db events after := by
  simp only [decide, bind_ok, require_ok, requireSome_ok, Prod.exists] at accepted
  obtain ⟨request, found, _, _, _, _, _, _, _, stored, present, _, _, _, _, decided, recorded,
    rest⟩ := accepted
  simp only [decideEvents, decisionEvents, bind_ok, requireSome_ok, Database.reload_ok, pure_ok,
    Prod.exists, Prod.mk.injEq] at built
  obtain ⟨_, _, ⟨_, again, _, same, _, recordedAgain, approval, _, updated, lookup,
    event, witness, rfl, rfl⟩, built⟩ := built
  obtain rfl := Option.mem_unique found again
  obtain rfl := Option.mem_unique present same
  obtain rfl := Option.mem_unique recorded recordedAgain
  have own : Audits actionId db [event] decided := by
    have change := recorded
    simp only [Database.recordDecision, bind, Option.bind_eq_some_iff, Option.guard_eq_some',
      exists_const, Option.pure_def, Option.some.injEq] at change
    obtain ⟨_, here, _, _, changed, rfl⟩ := change
    obtain rfl := Option.mem_unique found here
    obtain ⟨_, now, _, _, _, rfl⟩ := Database.updateAwaiting_row changed
    have stores : (db.storeAction request.actionId now).action? request.actionId = some now :=
      Database.storeAction_action?_self present
    obtain rfl := Option.mem_unique stores lookup
    exact .stored_row present rfl (AuditEventFactory.actionDecided_witnesses witness)
  split at rest
  · rename_i waiting
    simp only [bind_ok, pure_ok, Prod.exists] at rest
    obtain ⟨_, _, evaluated, rfl⟩ := rest
    simp only [if_pos waiting, bind_ok, pure_ok] at built
    obtain ⟨boundary, evaluates, rfl⟩ := built
    exact own.append (ApprovalBoundaryService.evaluate_audits
      (distinct _ (Database.recordDecision_effect recorded)) evaluated evaluates)
  · rename_i elsewhere
    simp only [bind_ok, pure_ok] at rest
    obtain ⟨_, _, rfl⟩ := rest
    rw [if_neg elsewhere] at built
    obtain rfl := pure_ok.mp built
    exact own

namespace ApprovalBoundaryService

variable {selected : List (String × StoredAction)}

theorem runtimeCancelledEvents_audits (built : runtimeCancelledEvents selected after = .ok events)
    (distinct : (selected.map Prod.fst).Nodup)
    (current : ∀ entry ∈ selected, db.action? entry.1 = some entry.2)
    (others : actionId ∉ selected.map Prod.fst → after.action? actionId = db.action? actionId) :
    Audits actionId db events after := by
  refine eventsOf_witnesses Prod.fst Prod.snd built distinct current ?_ others
  rintro ⟨selectedId, stored⟩ _ ones mine
  simp only [bind_ok, Database.reload_ok, pure_ok] at mine
  obtain ⟨now, lookup, event, witness, rfl⟩ := mine
  exact ⟨now, lookup, .inr ⟨event, rfl, AuditEventFactory.actionRuntimeCancelled_witnesses witness⟩⟩

theorem runtimeCancelledEvents_about (built : runtimeCancelledEvents selected after = .ok events) :
    ∀ event ∈ events, event.actionId ∈ selected.map Prod.fst := by
  refine eventsOf_about built ?_
  rintro ⟨selectedId, stored⟩ _ ones mine event listed
  simp only [bind_ok, Database.reload_ok, pure_ok] at mine
  obtain ⟨_, _, event, witness, rfl⟩ := mine
  rw [List.mem_singleton.mp listed]
  exact (AuditEventFactory.actionRuntimeCancelled_witnesses witness).action

end ApprovalBoundaryService

theorem ApprovalBoundaryService.cancelReleased_actions
    (cancelled : cancelReleased db snapshot actorDigest occurredAt = .ok after)
    (loaded : SnapshotOf db snapshot) (distinct : MembersDistinct db) :
    ActionsCancelled ((snapshot.rows.filter fun row => preCall row.stored.action).map fun row =>
      (row.member.actionId, row.stored)) db.actions after.actions := by
  simp only [cancelReleased, bind_ok, require_ok, requireSome_ok, pure_ok, Prod.exists] at cancelled
  obtain ⟨_, _, _, _, _, _, _, _, fenced, fences, _, cancels, _, _, _, _, _, _, _, _, fails, _,
    _, queues, _, _, runAdvanced, rfl⟩ := cancelled
  obtain ⟨_, _, _, _, _, rfl⟩ := Database.requestCancel_continues fences
  have rows : (((snapshot.rows.filter fun row => preCall row.stored.action).map fun row =>
      (row.member.actionId, row.stored)).map Prod.fst).Nodup := by
    have all := snapshot_distinct loaded distinct
    simpa [Function.comp_def] using all.sublist (List.filter_sublist.map _)
  obtain ⟨actions, rfl, changed⟩ := cancelUnstarted_effect cancels rows (by
    intro entry member
    obtain ⟨row, listed, rfl⟩ := List.mem_map.mp member
    exact (loaded.loaded row (List.mem_filter.mp listed).1).action)
  have left := (Database.advanceRun_actions runAdvanced).trans
    ((advanceSteps_actions queues).trans (advanceSteps_actions fails))
  rw [Database.appendAudits, left]
  exact changed

theorem ApprovalBoundaryService.cancelOnce_audits (distinct : MembersDistinct db)
    (cancelled : cancelOnce db actorDigest occurredAt = .ok after)
    (built : cancellationEvents db after = .ok events) : Audits actionId db events after := by
  simp only [cancelOnce, bind_ok] at cancelled
  obtain ⟨snapshot, loads, cancelled⟩ := cancelled
  simp only [cancellationEvents, bind_ok] at built
  obtain ⟨again, same, built⟩ := built
  obtain rfl := Except.ok.inj (loads.symm.trans same)
  have loaded := loadCurrent_effect loads
  have rows := snapshot_distinct loaded distinct
  have current : ∀ row ∈ snapshot.rows, db.action? row.member.actionId = some row.stored :=
    fun row listed => (loaded.loaded row listed).action
  cases status : snapshot.set.status with
  | released =>
      simp only [status, if_pos] at cancelled built
      refine runtimeCancelledEvents_audits built ?_ ?_
        ((cancelReleased_actions cancelled loaded distinct).others actionId)
      · simpa [Function.comp_def] using rows.sublist (List.filter_sublist.map _)
      · intro entry member
        obtain ⟨row, listed, rfl⟩ := List.mem_map.mp member
        exact current row (List.mem_filter.mp listed).1
  | «open» =>
      simp only [status, bind_ok, require_ok, requireSome_ok] at cancelled
      obtain ⟨_, _, _, _, _, _, fenced, fences, closed⟩ := cancelled
      obtain ⟨_, _, _, _, _, rfl⟩ := Database.requestCancel_continues fences
      rw [if_neg (by simp [status])] at built
      have fenced : Audits actionId { db with control := some _ } events after :=
        closeCurrentSet_audits closed current rows built
      exact fenced
  | rejected | cancelled | superseded =>
      simp only [status] at cancelled
      cases cancelled

theorem TerminalExecutionCleanupService.CleanedUp.audits
    (cleanup : CleanedUp db planHash failedStepId focalActionId failedStep middle)
    (run : after.run = middle.run)
    (kept : ∀ other, some other ≠ focalActionId → after.action? other = middle.action? other)
    (built : cleanupEvents db failedStepId focalActionId after = .ok events) :
    (∀ event ∈ events, some event.actionId ≠ focalActionId) ∧
      ∀ actionId, some actionId ≠ focalActionId →
      Audits actionId db events after := by
  obtain ⟨control, actions, stored, sealed, planned, cancelled, _⟩ := cleanup.closed
  have failed : db.run.state = .executing ∧ after.run.state = .failed := by
    refine ⟨cleanup.executing, ?_⟩
    rw [run]
    exact cleanup.run.moved.1
  simp only [cleanupEvents, if_pos failed, bind_ok, requireSome_ok] at built
  obtain ⟨again, same, others, plannedAgain, built⟩ := built
  obtain rfl := Option.mem_unique stored same
  rw [sealed] at plannedAgain
  obtain rfl := Except.ok.inj (planned.symm.trans plannedAgain)
  have sublist : (cancellable actions focalActionId).Sublist db.actions.entries :=
    List.filter_sublist.trans (planActions_sublist planned)
  refine ⟨fun event listed => ?_, fun actionId foreign => ?_⟩
  · obtain ⟨entry, selected, same⟩ := List.mem_map.mp
      (ApprovalBoundaryService.runtimeCancelledEvents_about built event listed)
    rw [← same]
    exact (of_decide_eq_true (List.mem_filter.mp selected).2).1
  · refine ApprovalBoundaryService.runtimeCancelledEvents_audits built
      (db.actions.nodup.sublist (sublist.map _))
      (fun entry member => Table.get?_eq_some_iff.mpr (sublist.subset member)) fun unlisted => ?_
    exact (kept actionId foreign).trans (cancelled.others actionId unlisted)

theorem TerminalExecutionCleanupService.cleanupEvents_nil (run : after.run = db.run)
    (built : cleanupEvents db failedStepId focalActionId after = .ok events) : events = [] := by
  have unfailed : ¬(db.run.state = .executing ∧ after.run.state = .failed) := by
    rw [run]
    rintro ⟨executing, failed⟩
    rw [executing] at failed
    cases failed
  rw [cleanupEvents, if_neg unfailed] at built
  exact (pure_ok.mp built).symm

namespace ExternalActionDispatcher

variable {dispatcher : Dispatcher} {leaseOwner focal : String} {outcome : WriteOutcome}

theorem outcomeEvent_witnesses {receiptReconciled : Bool}
    (built : outcomeEvent focal previous completed receiptReconciled = .ok event) :
    AuditEventFactory.Witnesses focal previous completed event := by
  unfold outcomeEvent at built
  split at built
  · split at built
    · exact AuditEventFactory.actionSuccess_witnesses built
    · exact AuditEventFactory.actionSuccess_witnesses built
  · exact AuditEventFactory.actionOutcomeUnknown_witnesses built
  · exact AuditEventFactory.actionFailed_witnesses built

theorem conclusion_audits {receiptReconciled : Bool}
    (concluded : WriteConcluded db focal outcome after)
    (built : conclusionEvents db focal receiptReconciled after = .ok events) :
    Audits actionId db events after := by
  simp only [conclusionEvents, bind_ok, requireSome_ok, Database.reload_ok, pure_ok] at built
  obtain ⟨previous, found, completed, lookup, event, witness, cleanups, cleaned, rfl⟩ := built
  have witnesses := outcomeEvent_witnesses witness
  cases concluded with
  | step present _ _ _ _ =>
      obtain rfl := Option.mem_unique found present
      obtain rfl := TerminalExecutionCleanupService.cleanupEvents_nil (by rfl) cleaned
      obtain rfl := Option.some.inj ((Table.get?_set_self present).symm.trans lookup)
      exact .stored_row found rfl witnesses
  | run present _ _ cleanup =>
      obtain rfl := Option.mem_unique found present
      obtain ⟨foreign, others⟩ := cleanup.audits (by rfl) (by
        intro other differs
        exact Table.get?_set_ne fun same => differs (congrArg some same)) cleaned
      by_cases same : actionId = focal
      · subst same
        have silent : aboutAction actionId cleanups = [] :=
          aboutAction_eq_nil.mpr fun event listed about =>
            foreign event listed (congrArg some about)
        have own : Audits actionId db [event] _ := .of_witnesses found lookup witnesses
        unfold Audits at own ⊢
        rw [← List.singleton_append, aboutAction_append, silent, List.append_nil]
        exact own
      · have silent : aboutAction actionId [event] = [] := by
          simp [aboutAction, witnesses.action, Ne.symm same]
        have own := others actionId fun equal => same (Option.some.inj equal)
        unfold Audits at own ⊢
        rw [← List.singleton_append, aboutAction_append, silent, List.nil_append]
        exact own

/-- A claim and its call start are two versions with two events. -/
theorem start_audits {claimedAt : Time} {start : DispatchCallStart}
    (dispatched : claimAndMarkCallStarted dispatcher db focal leaseOwner claimedAt =
      .ok (start, after))
    (built : startEvents dispatcher db focal leaseOwner claimedAt after = .ok events) :
    Audits actionId db events after := by
  simp only [claimAndMarkCallStarted, bind_ok, require_ok, requireSome_ok] at dispatched
  obtain ⟨stored, found, _, _, dispatched⟩ := dispatched
  simp only [startEvents, bind_ok, requireSome_ok] at built
  obtain ⟨again, same, built⟩ := built
  obtain rfl := Option.mem_unique found same
  split at dispatched
  · rename_i delivered
    simp only [pure_ok, Prod.mk.injEq] at dispatched
    obtain ⟨_, rfl⟩ := dispatched
    rw [if_pos delivered] at built
    obtain rfl := pure_ok.mp built
    exact .nothing rfl
  · rename_i undelivered
    simp only [bind_ok] at dispatched
    obtain ⟨authority, _, started⟩ := dispatched
    obtain ⟨_, _, _, updated, _, _, _, _, _, _, _, _, _, _, _, rfl⟩ :=
      startAdmitted_effect found started
    simp only [if_neg undelivered, bind_ok, requireSome_ok, Database.reload_ok, pure_ok] at built
    obtain ⟨_, _, claimedDb, claims, claimed, claimedFound, now, lookup, first,
      claimedEvent, second, startedEvent, rfl⟩ := built
    obtain ⟨_, _, _, _, _, _, _, _, _, _, _, _, claimStores⟩ := Database.claimReserved_effect claims
    have claimLeft := claimedFound
    rw [claimStores] at claimLeft
    obtain rfl := Option.some.inj ((Database.storeAction_action?_self found).symm.trans claimLeft)
    obtain rfl := Option.some.inj ((Table.get?_set_self found).symm.trans lookup)
    have claim : Audits actionId db [first] claimedDb :=
      .stored_row found (congrArg Database.actions claimStores)
        (AuditEventFactory.actionDispatchClaimed_witnesses claimedEvent)
    refine claim.append (.stored_row claimedFound ?_
      (AuditEventFactory.actionCallStarted_witnesses startedEvent))
    rw [claimStores]
    exact Table.set_set.symm

end ExternalActionDispatcher

end MarketingAgents
