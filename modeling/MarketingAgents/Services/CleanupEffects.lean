import MarketingAgents.Services.TerminalExecutionCleanup
import MarketingAgents.Services.TransitionEffects

namespace MarketingAgents

open Library

/-! # What a terminal cleanup changed -/

/-- A released action was cancelled before its provider call. -/
structure StoredAction.CancelledPreCall (stored updated : StoredAction) : Prop where
  released : stored.action.state ∈ [.dispatchReserved, .dispatching]
  uncalled : stored.action.call = none
  row : ∃ occurredAt reasonCode, updated.action.toExternalActionRow =
    { stored.settledRow .cancelled occurredAt with terminalReasonCode := some reasonCode }
  attempts : updated.attempts = stored.attempts ∨
    stored.action.state = .dispatching ∧ ∃ occurredAt reasonCode,
      updated.attempts = stored.cancelAttempt stored.action.deliveryAttemptCount
        occurredAt reasonCode

theorem preCall_iff : preCall action ↔
    action.state ∈ [.dispatchReserved, .dispatching] ∧ action.call = none := by
  simp [preCall]

variable {db after : Database} {actionId planHash reasonCode code message : String}
  {occurredAt : Time}
variable {stored : StoredAction}

theorem Database.cancelUnstarted_current {runId : String} {expectedVersion : Nat}
    (found : db.action? actionId = some stored)
    (cancelled : db.cancelUnstartedAfterRelease (db.action? actionId) actionId runId planHash
      expectedVersion occurredAt reasonCode = some after) :
    ∃ updated, stored.CancelledPreCall updated ∧ after = db.storeAction actionId updated := by
  obtain ⟨current, same, action, read, present, _, _, _, _, released, uncalled, row, changed⟩ :=
    cancelUnstartedAfterRelease_effect cancelled
  obtain rfl : stored = same := Option.mem_unique found present
  obtain rfl : stored = current := Option.mem_unique found read
  rcases changed with ⟨_, rfl⟩ | ⟨dispatching, _, rfl⟩
  · exact ⟨{ action, attempts := stored.attempts },
      ⟨released, uncalled, ⟨occurredAt, reasonCode, row⟩, .inl rfl⟩, rfl⟩
  · exact ⟨{ action, attempts := _ }, ⟨released, uncalled, ⟨occurredAt, reasonCode, row⟩,
      .inr ⟨dispatching, occurredAt, reasonCode, rfl⟩⟩, rfl⟩

/-- Every selected action was cancelled before its call and the others were left alone. -/
structure ActionsCancelled (selected : List (String × StoredAction))
    (before after : Table String StoredAction) : Prop where
  keys : after.keys = before.keys
  cancelled : ∀ entry ∈ selected, ∃ updated, after.get? entry.1 = some updated ∧
    entry.2.CancelledPreCall updated
  others : ∀ actionId, actionId ∉ selected.map Prod.fst → after.get? actionId = before.get? actionId

theorem cancelUnstarted_effect
    (cancelled : cancelUnstarted planHash occurredAt reasonCode code message selected db =
      .ok after)
    (distinct : (selected.map Prod.fst).Nodup)
    (current : ∀ entry ∈ selected, db.action? entry.1 = some entry.2) :
    ∃ actions, after = { db with actions } ∧ ActionsCancelled selected db.actions actions := by
  induction selected generalizing db with
  | nil =>
      cases cancelled
      exact ⟨_, rfl, rfl, by simp, fun _ _ => rfl⟩
  | cons entry rest ih =>
      obtain ⟨actionId, stored⟩ := entry
      simp only [List.map_cons, List.nodup_cons] at distinct
      simp only [cancelUnstarted, bind_ok, requireSome_ok] at cancelled
      obtain ⟨first, one, remaining⟩ := cancelled
      have found : db.action? actionId = some stored := current (actionId, stored) (by simp)
      obtain ⟨updated, preCall, rfl⟩ := Database.cancelUnstarted_current found one
      have differs : ∀ entry ∈ rest, entry.1 ≠ actionId := fun entry member same =>
        distinct.1 (same ▸ List.mem_map_of_mem member)
      obtain ⟨actions, rfl, tail⟩ := ih remaining distinct.2 (by
        intro entry member
        rw [Database.storeAction_action?_ne (differs entry member)]
        exact current entry (by simp [member]))
      refine ⟨actions, rfl, ?_, ?_, ?_⟩
      · rw [tail.keys]
        exact Table.keys_set
      · intro entry member
        rcases List.mem_cons.mp member with rfl | later
        · refine ⟨updated, ?_, preCall⟩
          rw [tail.others actionId distinct.1]
          exact Table.get?_set_self found
        · exact tail.cancelled entry later
      · intro other unselected
        simp only [List.map_cons, List.mem_cons, not_or] at unselected
        rw [tail.others other unselected.2]
        exact Table.get?_set_ne unselected.1

namespace TerminalExecutionCleanupService

theorem idleSiblings_effect {controlVersion : Nat}
    (classified : idleSiblings db planHash controlVersion cancelledStepIds siblings = .ok idle) :
    idle.Sublist siblings ∧ ∀ entry ∈ siblings, ∃ isIdle,
      idleSibling db planHash controlVersion cancelledStepIds entry.1 entry.2 = .ok isIdle ∧
        (entry ∈ idle ↔ isIdle = true) := by
  obtain ⟨known, rfl⟩ := selectWhere_ok.mp classified
  refine ⟨List.filter_sublist, fun entry member => ?_⟩
  obtain ⟨isIdle, accepted⟩ := known entry member
  exact ⟨isIdle, accepted, by simp [List.mem_filter, member, accepted, Except.toOption]⟩

/-- A cleaned-up sibling: queued steps are skipped, idle executing ones fail. -/
def SiblingCleaned (idle : Except Rejection Bool) (step after : RunStep) : Prop :=
  match step.state with
  | .pending | .ready | .awaitingApproval => step.Advanced .skip after
  | .executing =>
      ∃ isIdle, idle = .ok isIdle ∧ if isIdle then step.Advanced .fail after else after = step
  | .succeeded | .failed | .rejected | .cancelled | .skipped => after = step

/-- The actions that a cleanup cancels before their calls. -/
def cancellable (actions : List (String × StoredAction)) (focalActionId : Option String) :
    List (String × StoredAction) :=
  actions.filter fun entry => some entry.1 ≠ focalActionId ∧ preCall entry.2.action

/-- The rows after a cleanup that failed one step, cancelled the released
actions without a call and closed every sibling that had none in flight. -/
structure CleanedUp (db : Database) (planHash failedStepId : String) (focalActionId : Option String)
    (failedStep : RunStep) (after : Database) : Prop where
  executing : db.run.state = .executing
  run : db.run.Advanced .fail after.run
  failed : ∃ before, db.step? failedStepId = some before ∧ before.Advanced .fail failedStep
  stored : after.step? failedStepId = some failedStep
  keys : after.steps.keys = db.steps.keys
  closed : ∃ control actions, db.control = some control ∧ control.policyHash = planHash ∧
    planActions db planHash failedStepId focalActionId = .ok actions ∧
    ActionsCancelled (cancellable actions focalActionId) db.actions after.actions ∧
    ∀ stepId step, stepId ≠ failedStepId → db.step? stepId = some step →
      ∃ cleaned, after.step? stepId = some cleaned ∧
        SiblingCleaned (idleSibling db planHash control.version
          ((cancellable actions focalActionId).map fun entry => entry.2.action.contract.stepId)
          stepId step) step cleaned
  frame : after = { db with
    run := after.run
    runTransitions := after.runTransitions
    steps := after.steps
    stepTransitions := after.stepTransitions
    actions := after.actions }

theorem planActions_sublist
    (planned : planActions db planHash failedStepId focalActionId = .ok actions) :
    actions.Sublist db.actions.entries := by
  unfold planActions at planned
  simp only at planned
  split at planned
  · simp only [bind_ok, pure_ok] at planned
    obtain ⟨_, _, rfl⟩ := planned
    exact List.nil_sublist _
  · simp only [bind_ok, require_ok, requireSome_ok] at planned
    obtain ⟨_, _, _, _, _, _, _, _, planned⟩ := planned
    split at planned
    · obtain rfl := pure_ok.mp planned
      exact List.filter_sublist
    · simp only [bind_ok, pure_ok] at planned
      obtain ⟨_, _, rfl⟩ := planned
      exact List.filter_sublist

theorem failExecution_effect {cleanup : TerminalCleanup}
    (cleaned : failExecution db failedStepId planHash failureCode occurredAt focalActionId
      siblingReasonCode origin = .ok (cleanup, after)) :
    CleanedUp db planHash failedStepId focalActionId cleanup.deniedStep after := by
  simp only [failExecution, bind_ok, require_ok, requireSome_ok, pure_ok, Prod.exists,
    Prod.mk.injEq] at cleaned
  obtain ⟨_, executing, deniedStep, found, _, _, control, stored, _, sealed, actions,
    planned, cancelledDb,
    cancelled, denied, deniedDb, deniedAdvanced, idle, classified, failed, failedDb, failedAdvanced,
    skipped, skippedDb, skippedAdvanced, runResult, _, runAdvanced, rfl, rfl⟩ := cleaned
  have sublist : (cancellable actions focalActionId).Sublist db.actions.entries :=
    List.filter_sublist.trans (planActions_sublist planned)
  obtain ⟨actionRows, rfl, actionsCancelled⟩ := cancelUnstarted_effect cancelled
    (db.actions.nodup.sublist (sublist.map _))
    (fun entry member => Table.get?_eq_some_iff.mpr (sublist.subset member))
  obtain ⟨deniedMoved, _, _, _, rfl⟩ := Database.advanceStep_effect deniedAdvanced found
  obtain ⟨idleSublist, classes⟩ := idleSiblings_effect classified
  have idleOf : ∀ entry ∈ idle, db.step? entry.1 = some entry.2 ∧ entry.1 ≠ failedStepId ∧
      entry.2.state = .executing := by
    intro entry member
    simpa using Database.mem_stepsWhere.mp (idleSublist.subset member)
  have afterDenied : ∀ {stepId step}, stepId ≠ failedStepId → db.step? stepId = some step →
      (db.steps.set failedStepId denied.step).get? stepId = some step := by
    intro stepId step differs present
    rw [Table.get?_set_ne differs]
    exact present
  obtain ⟨failedSteps, _, rfl, failedMoved⟩ := advanceSteps_effect failedAdvanced
    (Database.stepsWhere_distinct.sublist (idleSublist.map _))
    (fun entry member => afterDenied (idleOf entry member).2.1 (idleOf entry member).1)
  have queuedOf : ∀ entry ∈ db.stepsWhere fun stepId step => stepId ≠ failedStepId &&
        step.state ∈ [.pending, .ready, .awaitingApproval],
      db.step? entry.1 = some entry.2 ∧ entry.1 ≠ failedStepId ∧
        entry.2.state ∈ [.pending, .ready, .awaitingApproval] := by
    intro entry member
    simpa using Database.mem_stepsWhere.mp member
  have notIdle : ∀ {stepId step}, db.step? stepId = some step → step.state ≠ .executing →
      stepId ∉ idle.map Prod.fst := by
    intro stepId step present differs listed
    obtain ⟨entry, member, rfl⟩ := List.mem_map.mp listed
    obtain rfl := Option.some.inj (present.symm.trans (idleOf entry member).1)
    exact differs (idleOf entry member).2.2
  obtain ⟨skippedSteps, _, rfl, skippedMoved⟩ := advanceSteps_effect skippedAdvanced
    Database.stepsWhere_distinct (by
      intro entry member
      obtain ⟨present, differs, queued⟩ := queuedOf entry member
      have notExecuting : entry.2.state ≠ .executing := by
        intro same
        simp [same] at queued
      exact (failedMoved.others entry.1 (notIdle present notExecuting)).trans
        (afterDenied differs present))
  obtain ⟨runMoved, rfl⟩ := Database.advanceRun_effect runAdvanced
  have unqueued : ∀ {stepId}, stepId ∉ (db.stepsWhere fun stepId step => stepId ≠ failedStepId &&
        step.state ∈ [.pending, .ready, .awaitingApproval]).map Prod.fst →
      skippedSteps.get? stepId = failedSteps.get? stepId :=
        fun {stepId} => skippedMoved.others stepId
  have notQueued : ∀ {stepId step}, db.step? stepId = some step →
      step.state ∉ [.pending, .ready, .awaitingApproval] →
      stepId ∉ (db.stepsWhere fun stepId step => stepId ≠ failedStepId &&
        step.state ∈ [.pending, .ready, .awaitingApproval]).map Prod.fst := by
    intro stepId step present settled listed
    obtain ⟨entry, member, rfl⟩ := List.mem_map.mp listed
    obtain rfl := Option.some.inj (present.symm.trans (queuedOf entry member).1)
    exact settled (queuedOf entry member).2.2
  have failedUnqueued : failedStepId ∉ (db.stepsWhere fun stepId step => stepId ≠ failedStepId &&
        step.state ∈ [.pending, .ready, .awaitingApproval]).map Prod.fst := by
    intro listed
    obtain ⟨entry, member, same⟩ := List.mem_map.mp listed
    exact (queuedOf entry member).2.1 same
  have failedNotIdle : failedStepId ∉ idle.map Prod.fst := by
    intro listed
    obtain ⟨entry, member, same⟩ := List.mem_map.mp listed
    exact (idleOf entry member).2.1 same
  refine {
    executing
    run := runMoved
    failed := ⟨deniedStep, found, deniedMoved⟩
    stored := ?_
    keys := ?_
    closed := ⟨control, actions, stored, sealed, planned, actionsCancelled, ?_⟩
    frame := rfl }
  · exact (unqueued failedUnqueued).trans ((failedMoved.others failedStepId failedNotIdle).trans
      (Table.get?_set_self found))
  · exact skippedMoved.keys.trans (failedMoved.keys.trans Table.keys_set)
  · intro stepId step differs present
    have settled : step.state ∉ [.pending, .ready, .awaitingApproval] → step.state ≠ .executing →
        skippedSteps.get? stepId = some step := fun settled still =>
      (unqueued (notQueued present settled)).trans
        ((failedMoved.others stepId (notIdle present still)).trans (afterDenied differs present))
    have queued : step.state ∈ [.pending, .ready, .awaitingApproval] →
        ∃ cleaned, skippedSteps.get? stepId = some cleaned ∧ step.Advanced .skip cleaned :=
            fun waiting =>
      skippedMoved.moved (stepId, step)
        (Database.mem_stepsWhere.mpr ⟨present, by simp [differs, waiting]⟩)
    cases state : step.state with
    | pending | ready | awaitingApproval =>
        obtain ⟨cleaned, lookup, advanced⟩ := queued (by simp [state])
        exact ⟨cleaned, lookup, by simpa [SiblingCleaned, state] using advanced⟩
    | executing =>
        have member : (stepId, step) ∈ db.stepsWhere fun stepId step =>
            stepId ≠ failedStepId && step.state = .executing :=
          Database.mem_stepsWhere.mpr ⟨present, by simp [differs, state]⟩
        obtain ⟨isIdle, accepted, selected⟩ := classes _ member
        have unskipped := unqueued (notQueued present (by simp [state]))
        simp only [SiblingCleaned, state]
        cases isIdle with
        | true =>
            obtain ⟨cleaned, lookup, advanced⟩ := failedMoved.moved _ (selected.mpr rfl)
            exact ⟨cleaned, unskipped.trans lookup, true, accepted, advanced⟩
        | false =>
            have kept := failedMoved.others stepId (by
              intro listed
              obtain ⟨entry, chosen, rfl⟩ := List.mem_map.mp listed
              obtain rfl := Option.some.inj (present.symm.trans (idleOf entry chosen).1)
              cases selected.mp chosen)
            exact ⟨step, unskipped.trans (kept.trans (afterDenied differs present)), false,
              accepted, rfl⟩
    | succeeded | failed | rejected | cancelled | skipped =>
        exact ⟨step, settled (by simp [state]) (by simp [state]), by simp [SiblingCleaned, state]⟩

end TerminalExecutionCleanupService

end MarketingAgents
