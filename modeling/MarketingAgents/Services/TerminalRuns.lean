import MarketingAgents.Services.CallsInFlight

namespace MarketingAgents

open Library

/-! # What a run that ended early leaves behind

A run fails or is cancelled by one transaction, which closes everything that
has no call in flight.  What is left is concluded later, and nothing starts again.
-/

/-- Nothing of the run can be taken up again: its steps are closed or wait for the
conclusion of a call, no action can still be decided or dispatched, and no
authorization set is open. -/
structure Drained (db : Database) : Prop where
  steps : ∀ stepId step, db.step? stepId = some step →
    step.state.terminal ∨ step.state = .executing ∧ db.InFlight stepId
  actions : ∀ actionId stored, db.action? actionId = some stored →
    stored.action.state ∉ [.awaitingApproval, .approved, .dispatchReserved] ∧
      (stored.action.state = .dispatching → stored.action.call ≠ none)
  closed : ∀ head set, db.currentAuthorizationSet = some (head, set) → set.status ≠ .open

/-- The attempts that were ever reserved for a step. -/
def Database.attemptIds (db : Database) (stepId : String) : List String :=
  ((db.operations.get? stepId).map fun operation => operation.attempts.map (·.id)).getD []

/-- The numbers of the delivery attempts of an action whose calls were started. -/
def Database.startedCalls (db : Database) (actionId : String) : List Nat :=
  ((db.action? actionId).map fun stored =>
    (stored.attempts.filter (·.started)).map (·.attemptNumber)).getD []

/-- The worker fails a run alone, without any of its steps, only before the plan
is recorded or when every step is over. -/
def ServiceTransaction.Drains (db : Database) : ServiceTransaction → Prop
  | failRun _ => db.run.state ∉ [.planned, .awaitingApproval] ∧
      (db.run.state = .executing → RunWorker.failedStep db = none →
        ∀ stepId step, db.step? stepId = some step → step.state.terminal)
  | _ => True

/-- What the condition means for the commit of a transaction. -/
structure Commit.Drains (db : Database) (commit : Commit) : Prop where
  failed : commit = .runMoved .fail → db.run.state ∈ [.received, .validated] ∨
    db.run.state = .executing ∧ ∀ stepId step, db.step? stepId = some step → step.state.terminal
  moved : ∀ stepId command, commit = .stepMoved stepId command → command = .markReady

variable {db after : Database} {commit : Commit} {stepId actionId : String} {step now : RunStep}
variable {stored later : StoredAction}

theorem ServiceTransaction.commits_draining (sound : Sound db)
    (stepped : serviceMachine.step db transaction after) (sent : transaction.Sent)
    (drains : transaction.Drains db) :
    ∃ commit, transaction.Commits db commit ∧ Committed db commit after ∧ commit.Drains db := by
  obtain ⟨commit, commits, committed⟩ := sound.commits stepped
  refine ⟨commit, commits, committed, ?_, ?_⟩
  · rintro rfl
    cases transaction with
    | advanceRun expectedVersion command context occurredAt =>
        obtain rfl := Commit.runMoved.inj commits
        exact absurd rfl sent
    | failRun now =>
        obtain ⟨unwaited, idle⟩ := drains
        simp only [Commits, reduceCtorEq, and_false, exists_false, false_or, and_true] at commits
        cases committed with
        | runMoved moved =>
            have live := moved.run.live
            cases state : db.run.state with
            | received | validated => simp
            | planned | awaitingApproval => simp [state] at unwaited
            | executing => exact .inr ⟨rfl, idle state (commits state)⟩
            | completed | failed | rejected | cancelled => simp [state, RunState.terminal] at live
    | _ => simp [Commits] at commits
  · rintro stepId command rfl
    cases transaction with
    | advanceStep focal expectedVersion moved context occurredAt =>
        obtain ⟨_, rfl⟩ := Commit.stepMoved.inj commits
        exact sent
    | _ => simp [Commits] at commits

theorem Run.Advanced.changed {run later : Run}
    (advanced : run.Advanced command later) : later ≠ run := by
  rintro rfl
  have version := advanced.version
  omega

theorem RunStep.Advanced.ended {command : StepLifecycleCommand}
    (ends : command ∈ [.succeed, .fail, .reject, .cancel, .skip])
    (advanced : step.Advanced command now) :
    now.state.terminal := by
  have target := advanced.moved
  cases command with
  | succeed | fail | reject | cancel | skip =>
      have state := target.2
      simp [state, StepState.terminal]
  | _ => simp at ends

theorem WriteOutcome.stepCommand_ends (outcome : WriteOutcome) :
    outcome.stepCommand.1 ∈ [.succeed, .fail, .reject, .cancel, .skip] := by
  cases outcome <;> simp [stepCommand, reasonCode]

/-- While its run goes on, a commit closes no step but the one it is about. -/
theorem Committed.closed_concerned (committed : Committed db commit after)
    (established : commit ≠ .planPersisted) (goesOn : after.run = db.run)
    (found : db.step? stepId = some step) (lookup : after.step? stepId = some now)
    (live : step.state.terminal = false) (ended : now.state.terminal = true) :
    commit.Concerns db stepId ∨ (∃ command, commit = .stepMoved stepId command) ∨
      commit = .stepExecuted stepId := by
  have kept : now ≠ step := by
    rintro rfl
    rw [ended] at live
    cases live
  have same : after.steps = db.steps → False := fun steps => by
    rw [Database.step?, steps] at lookup
    exact kept (Option.mem_unique lookup found)
  have moves : ∀ {focal : String} {changed : RunStep} {steps : Table String RunStep},
      steps = db.steps.set focal changed → steps.get? stepId = some now → stepId = focal := by
    intro focal changed steps sets present
    by_contra differs
    rw [sets, Table.get?_set_ne differs] at present
    exact kept (Option.mem_unique present found)
  cases committed with
  | recorded | actionReleased => exact (same rfl).elim
  | planPersisted => exact absurd rfl established
  | runMoved moved => exact (same (by rw [moved.frame])).elim
  | planActivated activated => exact absurd goesOn activated.run.changed
  | stepMoved moved =>
      obtain rfl := moves moved.steps lookup
      exact .inr (.inl ⟨_, rfl⟩)
  | stepExecuted executed =>
      obtain rfl := moves executed.steps lookup
      exact .inr (.inr rfl)
  | approvalsChanged changed => exact (same (by rw [changed.frame])).elim
  | setReleased decided released =>
      have run := released.run
      rw [decided.frame] at run
      exact absurd goesOn run.changed
  | setClosed decided closed =>
      have run := closed.run
      rw [decided.frame] at run
      rcases run with rejected | cancelled
      · exact absurd goesOn rejected.changed
      · exact absurd goesOn cancelled.changed
  | runCancelled cancelled => exact absurd goesOn cancelled.run.changed
  | attemptReserved reserved =>
      have change := reserved.step
      rw [Database.step?] at lookup
      generalize after.steps = steps at change lookup
      cases change with
      | first present _ _ advanced =>
          obtain rfl := moves rfl lookup
          rw [Table.get?_set_self present, Option.some.injEq] at lookup
          subst lookup
          have executing := advanced.moved.2.2
          simp [executing, StepState.terminal] at ended
      | retry => exact (kept (Option.mem_unique lookup found)).elim
  | attemptClosed closed =>
      obtain ⟨_, completed, closed, conclusion⟩ := closed
      have steps : completed.steps = db.steps := by rw [closed.frame]
      cases conclusion with
      | retry => exact (same steps).elim
      | step =>
          obtain rfl := moves (by rw [steps]) lookup
          exact .inl rfl
      | run _ cleanup =>
          have run := cleanup.run
          rw [closed.frame] at run
          exact absurd goesOn run.changed
  | callStarted started =>
      obtain ⟨_, _, _, _, _, change, _⟩ := started.call
      rw [Database.step?] at lookup
      generalize after.steps = steps at change lookup
      cases change with
      | first present advanced =>
          obtain rfl := moves rfl lookup
          rw [Table.get?_set_self present, Option.some.injEq] at lookup
          subst lookup
          have executing := advanced.moved.2.2
          simp [executing, StepState.terminal] at ended
      | retry => exact (kept (Option.mem_unique lookup found)).elim
  | actionConcluded concluded =>
      cases concluded with
      | step present =>
          obtain rfl := moves rfl lookup
          exact .inl ⟨_, present, rfl⟩
      | run _ _ _ cleanup => exact absurd goesOn cleanup.run.changed
  | cleanedUp cleanup => exact absurd goesOn cleanup.run.changed

theorem StoredAction.undispatchable
    (undecided : stored.action.state ∉ [.awaitingApproval, .approved])
    (called : ¬ preCall stored.action) :
    stored.action.state ∉ [.awaitingApproval, .approved, .dispatchReserved] ∧
      (stored.action.state = .dispatching → stored.action.call ≠ none) := by
  rw [preCall_iff] at called
  have unreserved : stored.action.state ≠ .dispatchReserved := by
    intro reserved
    cases call : stored.action.call with
    | none => exact called ⟨by simp [reserved], call⟩
    | some started =>
        have dispatching := stored.action.dispatching_iff_lease.mpr
          (stored.action.call_requires_lease call)
        rw [reserved] at dispatching
        cases dispatching
  refine ⟨?_, fun dispatching uncalled => called ⟨by simp [dispatching], uncalled⟩⟩
  simp only [List.mem_cons, List.not_mem_nil, or_false, not_or] at undecided ⊢
  exact ⟨undecided.1, undecided.2, unreserved⟩

namespace TerminalExecutionCleanupService

variable {middle : Database} {planHash failedStepId : String} {focalActionId : Option String}
variable {failedStep : RunStep}

/-- A cleanup looks at every action of the plan. -/
theorem planActions_covers {actions : List (String × StoredAction)}
    (planned : planActions db planHash failedStepId focalActionId = .ok actions)
    (found : db.action? actionId = some stored) (hash : stored.action.contract.planHash = planHash)
    (present : db.step? stored.action.contract.stepId = some step) (write : step.effect = .write) :
    (actionId, stored) ∈ actions ∧ (focalActionId = some actionId →
      stored.action.contract.stepId = failedStepId) := by
  have listed : (stored.action.contract.stepId, step) ∈ db.stepsWhere fun _ step =>
    step.effect = .write :=
    Database.mem_stepsWhere.mpr ⟨present, by simp [write]⟩
  have member : (actionId, stored) ∈ db.listRunPlan planHash := by
    simp only [Database.listRunPlan, List.mem_filter, decide_eq_true_eq]
    exact ⟨Table.mem_entries_of_get? found, hash⟩
  unfold planActions at planned
  simp only at planned
  split at planned
  · rename_i noWrites
    rw [noWrites] at listed
    simp at listed
  · simp only [bind_ok, require_ok, requireSome_ok] at planned
    obtain ⟨_, _, _, _, _, _, _, _, planned⟩ := planned
    split at planned
    · obtain rfl := pure_ok.mp planned
      exact ⟨member, by simp⟩
    · rename_i focal
      simp only [bind_ok, require_ok, pure_ok, List.any_eq_true, Bool.and_eq_true,
        decide_eq_true_eq] at planned
      obtain ⟨_, ⟨entry, focalListed, named, own⟩, rfl⟩ := planned
      refine ⟨member, fun same => ?_⟩
      obtain rfl := Option.some.inj same
      have entryFound : db.action? entry.1 = some entry.2 := by
        simp only [Database.listRunPlan, List.mem_filter] at focalListed
        exact Table.get?_eq_some_iff.mpr focalListed.1
      rw [named, found] at entryFound
      rw [Option.some.inj entryFound]
      exact own

variable (governed : Governed db) (plan : SamePlan db middle) (steps : middle.steps = db.steps)
variable (actions : middle.actions = db.actions)

include governed plan steps actions in
theorem planActions_known
    (listed : planActions middle planHash failedStepId focalActionId = .ok planned)
    (sealed : middle.control.map (·.policyHash) = some planHash)
    (found : db.action? actionId = some stored) : (actionId, stored) ∈ planned ∧
      (focalActionId = some actionId → stored.action.contract.stepId = failedStepId) := by
  obtain ⟨step, present, write, hash⟩ := governed.sound.binding.actions actionId stored found
  have bound := governed.sound.binding.sealed _ step present
  rw [← plan.control, sealed, Option.some.injEq] at bound
  exact planActions_covers listed (by rw [Database.action?, actions]; exact found)
    (hash.trans bound.symm) (by rw [Database.step?, steps]; exact present) write

variable (cleanup : CleanedUp middle planHash failedStepId focalActionId failedStep after)

include governed plan steps actions cleanup

/-- A step that a cleanup leaves executing has its call in flight. -/
theorem CleanedUp.steps_drained
    (operations : stepId ≠ failedStepId → middle.operations.get? stepId = db.operations.get? stepId)
    (lookup : after.step? stepId = some now) : now.state.terminal ∨
      stepId ≠ failedStepId ∧ now.state = .executing ∧ db.step? stepId = some now ∧
        db.InFlight stepId := by
  have keys := cleanup.keys
  obtain ⟨control, planned, stored, hash, listed, _, closed⟩ := cleanup.closed
  have sealed : middle.control.map (·.policyHash) = some planHash := by simp [stored, hash]
  by_cases differs : stepId ≠ failedStepId
  · obtain ⟨step, found⟩ := Table.mem_keys_iff.mp
      (keys ▸ Table.mem_keys_iff.mpr ⟨now, lookup⟩ : stepId ∈ middle.steps.keys)
    obtain ⟨again, same, cleaned⟩ := closed stepId step differs found
    obtain rfl := Option.mem_unique lookup same
    have present : db.step? stepId = some step := by rw [Database.step?, ← steps]; exact found
    unfold SiblingCleaned at cleaned
    cases state : step.state with
    | pending | ready | awaitingApproval =>
        simp only [state] at cleaned
        exact .inl (cleaned.ended (by simp))
    | executing =>
        simp only [state] at cleaned
        obtain ⟨isIdle, idle, change⟩ := cleaned
        cases isIdle with
        | true =>
            exact .inl (change.ended (by simp))
        | false =>
            obtain rfl : now = step := change
            refine .inr ⟨differs, state, present, ?_⟩
            unfold idleSibling at idle
            split at idle
            · rename_i write
              obtain ⟨actionId, action, found, own, delivering⟩ :=
                governed.phase.delivering stepId now present write state
              refine .inr ⟨actionId, action, found, own, ?_⟩
              by_contra uncalled
              have pending : preCall action.action := by
                rw [preCall_iff]
                refine ⟨delivering, ?_⟩
                by_contra called
                refine uncalled ⟨?_, called⟩
                obtain ⟨call, started⟩ := Option.ne_none_iff_exists'.mp called
                exact action.action.dispatching_iff_lease.mpr
                  (action.action.call_requires_lease started)
              obtain ⟨known, focal⟩ :=
                planActions_known governed plan steps actions listed sealed found
              have selected : (actionId, action) ∈ cancellable planned focalActionId := by
                refine List.mem_filter.mpr ⟨known, ?_⟩
                simp only [ne_eq, decide_eq_true_eq]
                exact ⟨fun same => differs (own.symm.trans (focal same.symm)), pending⟩
              have cancels : stepId ∈ (cancellable planned focalActionId).map fun entry =>
                  entry.2.action.contract.stepId := List.mem_map.mpr ⟨_, selected, own⟩
              exact of_decide_eq_false (Except.ok.inj idle) cancels
            · split at idle
              · cases idle
              · cases classified : middle.executingReadDisposition planHash control.version
                  stepId now with
                | error reason => simp [classified, reject] at idle
                | ok disposition =>
                    simp only [classified, Except.ok.injEq, decide_eq_false_iff_not] at idle
                    rw [Database.executingReadDisposition_at (operations differs)] at classified
                    refine .inl ((governed.sound.disposition_open present classified).mp ?_)
                    cases disposition with
                    | «open» => rfl
                    | retryBackoff => exact absurd rfl idle
    | succeeded | failed | rejected | cancelled | skipped =>
        simp only [state] at cleaned
        exact .inl (by simp [cleaned, state, StepState.terminal])
  · rw [not_not] at differs
    subst differs
    obtain ⟨_, _, advanced⟩ := cleanup.failed
    obtain rfl := Option.mem_unique cleanup.stored lookup
    exact .inl (advanced.ended (by simp))

theorem CleanedUp.actions_drained (executing : db.run.state = .executing)
    (found : db.action? actionId = some stored) (apart : focalActionId ≠ some actionId) :
    ∃ later, after.action? actionId = some later ∧
      later.action.state ∉ [.awaitingApproval, .approved, .dispatchReserved] ∧
      (later.action.state = .dispatching → later.action.call ≠ none) := by
  obtain ⟨control, planned, stored', hash, listed, cancelled, _⟩ := cleanup.closed
  have sealed : middle.control.map (·.policyHash) = some planHash := by simp [stored', hash]
  have known := (planActions_known governed plan steps actions listed sealed found).1
  obtain ⟨later, lookup, ⟨rfl, unselected⟩ | change⟩ := cancelled.cases (fun entry member =>
    Table.get?_eq_some_iff.mpr
      ((List.filter_sublist.trans (planActions_sublist listed)).subset member))
    (show middle.actions.get? actionId = some stored by rw [actions]; exact found)
  · refine ⟨later, lookup, later.undispatchable (governed.phase.approvedActions executing _ _ found)
      fun pending => unselected ?_⟩
    refine List.mem_map.mpr ⟨(actionId, later), List.mem_filter.mpr ⟨known, ?_⟩, rfl⟩
    simp only [ne_eq, decide_eq_true_eq]
    exact ⟨fun same => apart same.symm, pending⟩
  · exact ⟨later, lookup, by simp [change.state], by simp [change.state]⟩

end TerminalExecutionCleanupService

section Commits

variable (governed : Governed db) (committed : Committed db commit after)
variable (established : commit ≠ .planPersisted)

include committed established in
/-- A call in flight is concluded by the commits about its step, or released for a retry. -/
theorem Committed.inFlight_kept (unconcerned : ¬ commit.Concerns db stepId)
    (unreleased : ∀ actionId, commit ≠ .actionReleased actionId) (inFlight : db.InFlight stepId) :
    after.InFlight stepId := by
  rcases inFlight with ⟨operation, present, attempt, member, isOpen⟩ |
    ⟨actionId, stored, found, own, calling⟩
  · left
    by_cases reserves : commit = .attemptReserved stepId
    · subst reserves
      cases committed with
      | attemptReserved reserved =>
          obtain ⟨_, _, _, before, _, _, _, _, _, earlier, _, _, _, _, operations⟩ :=
            reserved.charged
          obtain rfl := Option.mem_unique present earlier
          exact ⟨_, (congrArg (·.get? stepId) operations).trans (Table.get?_set_self earlier),
            attempt, List.mem_append_left _ member, isOpen⟩
    · have kept := committed.operation_kept established reserves fun closes => by
        subst closes
        exact unconcerned rfl
      exact ⟨operation, kept.trans present, attempt, member, isOpen⟩
  · right
    obtain ⟨later, lookup, event⟩ := committed.actionEvent established found
    cases event with
    | kept => exact ⟨actionId, stored, lookup, own, calling⟩
    | reconsidered changed =>
        have waiting := changed.unreleased
        simp [calling.1] at waiting
    | released _ before reserved =>
        rcases before with rfl | changed
        · have approved := reserved.approved
          simp [calling.1] at approved
        · have waiting := changed.unreleased
          simp [calling.1] at waiting
    | called _ call =>
        have reserved := call.reserved
        simp [calling.1] at reserved
    | retried recovered => exact absurd recovered (unreleased actionId)
    | concluded ended =>
        subst ended
        exact absurd ⟨stored, found, own⟩ unconcerned
    | cancelled _ change => exact absurd change.uncalled calling.2

include governed in
theorem Governed.boundary_closed (executing : db.run.state = .executing)
    {head : AuthorizationSetHead}
    {set : AuthorizationSet} (current : db.currentAuthorizationSet = some (head, set)) :
    set.status ≠ .open := by
  by_cases required : db.run.approvalRequired = some true
  · obtain ⟨_, _, same, released⟩ := governed.phase.released executing required
    rw [current, Option.some.injEq, Prod.mk.injEq] at same
    simp [same.2, released]
  · have headless := governed.members.headless required
    simp [Database.currentAuthorizationSet, headless] at current

/-- The cleanup of an executing run leaves nothing to be taken up again. -/
theorem Drained.of_cleanup {middle cleaned : Database} {planHash failedStepId : String}
    {focalActionId : Option String} {failedStep : RunStep} (governed : Governed db)
    (committed : Committed db commit after) (sweeps : commit.sweeps)
    (executing : db.run.state = .executing) (plan : SamePlan db middle)
    (steps : middle.steps = db.steps) (actions : middle.actions = db.actions)
    (operations : ∀ stepId, stepId ≠ failedStepId →
      middle.operations.get? stepId = db.operations.get? stepId)
    (cleanup : TerminalExecutionCleanupService.CleanedUp middle planHash failedStepId focalActionId
      failedStep cleaned)
    (sameSteps : after.steps = cleaned.steps)
    (sameActions : ∀ actionId, focalActionId ≠ some actionId →
      after.action? actionId = cleaned.action? actionId)
    (focal : ∀ actionId, focalActionId = some actionId →
      ∃ outcome : WriteOutcome, ∃ later, after.action? actionId = some later ∧
        later.action.state = outcome.actionState)
    (unconcerned : ∀ stepId, stepId ≠ failedStepId → ¬ commit.Concerns db stepId) :
      Drained after where
  steps := by
    have established : commit ≠ .planPersisted := by
      rintro rfl
      cases sweeps
    have unreleased : ∀ actionId, commit ≠ .actionReleased actionId := by
      rintro actionId rfl
      cases sweeps
    intro stepId now lookup
    rw [Database.step?, sameSteps] at lookup
    rcases cleanup.steps_drained governed plan steps actions (operations stepId) lookup with
      ended | ⟨differs, runs, _, inFlight⟩
    · exact .inl ended
    · exact .inr ⟨runs, committed.inFlight_kept established
        (unconcerned stepId differs) unreleased inFlight⟩
  actions := by
    have established : commit ≠ .planPersisted := by
      rintro rfl
      cases sweeps
    intro actionId later lookup
    by_cases own : focalActionId = some actionId
    · obtain ⟨outcome, again, same, state⟩ := focal actionId own
      obtain rfl := Option.mem_unique lookup same
      have final := outcome.actionState_final
      rw [← state] at final
      generalize later.action.state = state at final
      cases state <;> simp at final ⊢
    · rw [sameActions actionId own] at lookup
      obtain ⟨stored, found, _⟩ := (committed.samePlan established).actions.source
        (show after.actions.get? actionId = some later by
          rw [← Database.action?, sameActions actionId own]; exact lookup)
      obtain ⟨again, same, drained⟩ :=
        cleanup.actions_drained governed plan steps actions executing found own
      obtain rfl := Option.mem_unique lookup same
      exact drained
  closed := by
    intro head set current
    rw [committed.sets_kept (by rintro rfl; cases sweeps) (by rintro rfl; cases sweeps)
      (by rintro rfl; cases sweeps)] at current
    exact governed.boundary_closed executing current

theorem Drained.of_unplanned (sound : Sound db) (unplanned : db.run.approvalRequired = none)
    (steps : after.steps = db.steps) (actions : after.actions = db.actions)
    (head : after.authorizationHead = db.authorizationHead) : Drained after := by
  obtain ⟨noSteps, _, noActions, _, headless⟩ := sound.binding.unplanned unplanned
  refine { steps := ?_, actions := ?_, closed := ?_ }
  · intro stepId step found
    rw [Database.step?, steps, ← Database.step?, noSteps stepId] at found
    cases found
  · intro actionId stored found
    rw [Database.action?, actions, ← Database.action?, noActions actionId] at found
    cases found
  · intro head' set current
    simp [Database.currentAuthorizationSet, head, headless] at current

/-- A cancellation leaves nothing to be taken up again. -/
theorem RunCancelled.drained (governed : Governed db) (cancelled : RunCancelled db after) :
    Drained after := by
  have committed : Committed db .runCancelled after := .runCancelled cancelled
  have kept : ∀ {stepId}, db.InFlight stepId → after.InFlight stepId := fun inFlight =>
    committed.inFlight_kept (by simp) (fun concerned => concerned) (by simp) inFlight
  obtain ⟨control, selected, _, current, swept, reaches, closed⟩ := cancelled.closed
  refine { steps := ?_, actions := ?_, closed := ?_ }
  · intro stepId now lookup
    obtain ⟨step, found⟩ := Table.mem_keys_iff.mp
      (cancelled.stepKeys ▸ Table.mem_keys_iff.mpr ⟨now, lookup⟩ : stepId ∈ db.steps.keys)
    obtain ⟨again, same, change⟩ := closed stepId step found
    obtain rfl := Option.mem_unique lookup same
    unfold StepCancelled at change
    cases state : step.state with
    | pending | ready =>
        simp only [state] at change
        exact .inl (change.ended (by simp))
    | awaitingApproval =>
        rcases reaches with direct | ⟨executing, _⟩
        · have write := governed.phase.waits stepId step found state
          rw [governed.sound.binding.readOnly direct stepId step found] at write
          cases write
        · exact absurd state (governed.phase.approvedSteps executing stepId step found)
    | executing =>
        simp only [state] at change
        split at change
        · split at change
          · exact .inl (change.ended (by simp))
          · obtain ⟨rfl, actionId, stored, present, own, calling⟩ := change
            exact .inr ⟨state, kept (.inr ⟨actionId, stored, present, own, calling⟩)⟩
        · obtain ⟨disposition, classified, change⟩ := change
          split at change
          · exact .inl (change.ended (by simp))
          · rename_i called
            subst change
            have isOpen : disposition = .open := by
              cases disposition with
              | «open» => rfl
              | retryBackoff => exact absurd rfl called
            exact .inr ⟨state, kept
              (.inl ((governed.sound.disposition_open found classified).mp isOpen))⟩
    | succeeded | failed | rejected | cancelled | skipped =>
        simp only [state] at change
        exact .inl (by simp [change, state, StepState.terminal])
  · intro actionId later lookup
    obtain ⟨stored, found, _⟩ := (committed.samePlan (by simp)).actions.source lookup
    obtain ⟨again, same, ⟨rfl, unselected⟩ | change⟩ := swept.cases current found
    · obtain rfl := Option.mem_unique lookup same
      rcases reaches with direct | ⟨executing, head, set, currentSet, _, sweeps⟩
      · obtain ⟨step, present, write, _⟩ := governed.sound.binding.actions actionId later found
        rw [governed.sound.binding.readOnly direct _ step present] at write
        cases write
      · refine later.undispatchable (governed.phase.approvedActions executing actionId later found)
          fun pending => unselected ?_
        have members : db.currentMembers =
            some (set.members.map fun member => { member with release := none }) := by
          rw [Database.currentMembers, currentSet, Option.map_some]
        obtain ⟨_, listed, named, _⟩ := governed.members.owned _ members actionId later found
        obtain ⟨member, source, rfl⟩ := List.mem_map.mp listed
        have same : member.actionId = actionId := named
        exact List.mem_map.mpr ⟨_, sweeps member source later (same ▸ found) pending, same⟩
    · obtain rfl := Option.mem_unique lookup same
      simp [change.state]
  · intro head set currentSet
    rw [committed.sets_kept (by simp) (by simp) (by simp)] at currentSet
    rcases reaches with direct | ⟨executing, _⟩
    · have headless := governed.members.headless (by simp [direct])
      simp [Database.currentAuthorizationSet, headless] at currentSet
    · exact governed.boundary_closed executing currentSet

/-- The closure of an undecided set leaves nothing to be taken up again. -/
theorem ApprovalBoundaryService.SetClosed.drained (governed : Governed db)
    (decided : ApprovalsChanged db middle)
    (closed : ApprovalBoundaryService.SetClosed middle after) :
    Drained after := by
  have committed : Committed db .setClosed after := .setClosed decided closed
  obtain ⟨head, set, stored', current, ends, status⟩ : ∃ head set stored,
      middle.currentAuthorizationSet = some (head, set) ∧
      after.currentAuthorizationSet = some (head, stored) ∧
          stored.status ∈ [.rejected, .cancelled] := by
    rcases closed.set with set | set
    · obtain ⟨head, set, stored, current, ends, status, _⟩ := set.current
      exact ⟨head, set, stored, current, ends, by simp [status]⟩
    · obtain ⟨head, set, stored, current, ends, status, _⟩ := set.current
      exact ⟨head, set, stored, current, ends, by simp [status]⟩
  refine { steps := ?_, actions := ?_, closed := ?_ }
  · intro stepId now lookup
    obtain ⟨step, found⟩ := Table.mem_keys_iff.mp
      (closed.stepKeys ▸ Table.mem_keys_iff.mpr ⟨now, lookup⟩ : stepId ∈ middle.steps.keys)
    obtain ⟨again, same, change⟩ := closed.steps stepId step found
    obtain rfl := Option.mem_unique lookup same
    rcases change with rejected | cancelled
    · exact .inl (rejected.ended (by simp))
    · exact .inl (cancelled.ended (by simp))
  · intro actionId later lookup
    obtain ⟨stored, found, _⟩ := (committed.samePlan (by simp)).actions.source lookup
    have members : db.currentMembers =
        some (set.members.map fun member => { member with release := none }) := by
      rw [← decided.samePlan.members, Database.currentMembers, current, Option.map_some]
    obtain ⟨_, listed, named, _⟩ := governed.members.owned _ members actionId stored found
    obtain ⟨member, source, rfl⟩ := List.mem_map.mp listed
    have same : member.actionId = actionId := named
    obtain ⟨again, closedAction, ended⟩ := closed.closed head set current member source
    rw [same] at closedAction
    obtain rfl := Option.mem_unique lookup closedAction
    generalize later.action.state = state at ended
    cases state <;> simp at ended ⊢
  · intro again other currentSet
    rw [ends, Option.some.injEq, Prod.mk.injEq] at currentSet
    rw [currentSet.2] at status
    intro undecided
    simp [undecided] at status

theorem Drained.of_idle (governed : Governed db) (executing : db.run.state = .executing)
    (finished : ∀ stepId step, db.step? stepId = some step → step.state.terminal)
    (delivering : ∀ actionId stored, db.action? actionId = some stored →
      stored.action.state ∈ [.dispatchReserved, .dispatching] →
      ∃ step, db.step? stored.action.contract.stepId = some step ∧
        step.state ∈ [.ready, .executing])
    (moved : RunMoved db .fail after) : Drained after := by
  refine { steps := ?_, actions := ?_, closed := ?_ }
  · intro stepId step found
    rw [moved.frame] at found
    exact .inl (finished stepId step found)
  · intro actionId stored found
    rw [moved.frame] at found
    refine stored.undispatchable (governed.phase.approvedActions executing actionId stored found)
      fun pending => ?_
    obtain ⟨step, present, state⟩ := delivering actionId stored found (preCall_iff.mp pending).1
    have ended := finished _ step present
    simp only [List.mem_cons, List.not_mem_nil, or_false] at state
    rcases state with ready | executes
    · simp [ready, StepState.terminal] at ended
    · simp [executes, StepState.terminal] at ended
  · intro head set current
    rw [moved.frame] at current
    exact governed.boundary_closed executing current

theorem AttemptClosed.unretried (closed : AttemptClosed db stepId completion completed)
    (ended : db.run.state ∈ [.failed, .cancelled]) :
    completion.retryNotBefore = none := by
  obtain ⟨command, attempt, operation, control, window, _, _, _, _, _, _, completionIs, _⟩ :=
    closed.accounts
  by_contra allowed
  obtain ⟨retryNotBefore, retry⟩ := Option.ne_none_iff_exists'.mp allowed
  rw [completionIs] at retry
  have transient := (Database.completionOf_retry retry).1
  simp only [Database.completionOf, Database.effectiveOutcome] at transient
  simp only [List.mem_cons, List.not_mem_nil, or_false] at ended
  rcases ended with state | state
  · simp only [Database.cancellationFenced, Database.terminalParent, state] at transient
    split at transient
    · split at transient <;> simp at transient
    · rename_i differs
      exact differs transient
  · simp only [Database.cancellationFenced, Database.terminalParent, state] at transient
    split at transient
    · simp at transient
    · rename_i differs
      exact differs transient

theorem Committed.concluded_terminal (committed : Committed db commit after)
    (goesOn : after.run = db.run)
    (ended : db.run.state ∈ [.failed, .cancelled]) (concerned : commit.Concerns db stepId)
    (lookup : after.step? stepId = some now) : now.state.terminal := by
  cases committed with
  | attemptClosed closed =>
      obtain ⟨_, completed, closed, conclusion⟩ := closed
      obtain rfl : _ = stepId := concerned
      cases conclusion with
      | retry allowed => exact absurd (closed.unretried ended) allowed
      | step _ ends found advanced =>
          rw [Database.step?, Table.get?_set_self found, Option.some.injEq] at lookup
          subst lookup
          exact advanced.ended (by rcases ends with rfl | rfl <;> simp)
      | run _ cleanup =>
          have run := cleanup.run
          rw [closed.frame] at run
          exact absurd goesOn run.changed
  | actionConcluded concluded =>
      obtain ⟨focal, found, rfl⟩ := concerned
      cases concluded with
      | step present _ stepFound advanced =>
          obtain rfl := Option.mem_unique found present
          rw [Database.step?, Table.get?_set_self stepFound, Option.some.injEq] at lookup
          subst lookup
          exact advanced.ended (WriteOutcome.stepCommand_ends _)
      | run _ _ _ cleanup => exact absurd goesOn cleanup.run.changed
  | cleanedUp cleanup => exact absurd goesOn cleanup.run.changed
  | _ => exact concerned.elim

theorem Committed.undecided (committed : Committed db commit after)
    (crosses : commit ∈ [.setReleased, .setClosed]) : db.run.state = .awaitingApproval := by
  cases committed with
  | setReleased decided released =>
      have waiting := released.waiting
      rw [decided.frame] at waiting
      exact waiting
  | setClosed decided closed =>
      have waiting := closed.waiting
      rw [decided.frame] at waiting
      exact waiting
  | _ => simp at crosses

/-- Whatever is concluded later, a run that has ended stays drained. -/
theorem Drained.kept (governed : Governed db) (committed : Committed db commit after)
    (established : commit ≠ .planPersisted) (goesOn : after.run = db.run)
    (ended : db.run.state ∈ [.failed, .cancelled]) (drained : Drained db) : Drained after := by
  have plan := committed.samePlan established
  have stopped : db.run.state ≠ .executing := by
    intro executing
    simp [executing] at ended
  have unreleased : ∀ actionId, commit ≠ .actionReleased actionId := by
    rintro actionId rfl
    cases committed with
    | actionReleased released => exact stopped released.executing
  refine { steps := ?_, actions := ?_, closed := ?_ }
  · intro stepId now lookup
    obtain ⟨step, found, _⟩ := plan.steps.source lookup
    obtain ⟨again, same, event⟩ := committed.stepEvent governed.sound.binding established found
    obtain rfl := Option.mem_unique lookup same
    rcases drained.steps stepId step found with finished | ⟨executing, inFlight⟩
    · rw [event.terminal_kept finished]
      exact .inl finished
    · by_cases concerned : commit.Concerns db stepId
      · exact .inl (committed.concluded_terminal goesOn ended concerned lookup)
      · by_cases finished : now.state.terminal
        · exact .inl finished
        · have runs : now.state = .executing := by
            cases event with
            | kept => exact executing
            | readied advanced | released advanced | started advanced | attempted advanced
            | called advanced =>
                have waiting := advanced.moved.1
                simp [executing] at waiting
            | executed start =>
                have waiting := start.moved.1
                simp [executing] at waiting
            | closed ends advanced => exact absurd (advanced.ended ends) finished
          exact .inr ⟨runs, committed.inFlight_kept established concerned unreleased inFlight⟩
  · intro actionId later lookup
    obtain ⟨stored, found, _⟩ := plan.actions.source lookup
    obtain ⟨again, same, event⟩ := committed.actionEvent established found
    obtain rfl := Option.mem_unique lookup same
    obtain ⟨undecided, called⟩ := drained.actions actionId stored found
    cases event with
    | kept => exact ⟨undecided, called⟩
    | reconsidered changed =>
        have waiting := changed.unreleased
        simp only [List.mem_cons, List.not_mem_nil, or_false] at waiting undecided
        exact absurd (waiting.imp_right .inl) undecided
    | released crossed =>
        have waiting := committed.undecided (by simp [crossed])
        simp [waiting] at ended
    | called _ call => simp [call.reserved] at undecided
    | retried recovered => exact absurd recovered (unreleased actionId)
    | @concluded outcome _ _ change =>
        have final := outcome.actionState_final
        rw [← change.state] at final
        generalize later.action.state = state at final
        cases state <;> simp at final ⊢
    | cancelled _ change => simp [change.state]
  · intro head set current
    have crossed : commit ∉ [.setReleased, .setClosed] := by
      intro crosses
      have waiting := committed.undecided crosses
      simp [waiting] at ended
    simp only [List.mem_cons, List.not_mem_nil, or_false, not_or] at crossed
    rw [committed.sets_kept established crossed.1 crossed.2] at current
    exact drained.closed head set current

theorem startedCalls_map {change : DispatchAttempt → DispatchAttempt}
    (attempts : List DispatchAttempt)
    (started : ∀ attempt, (change attempt).started = attempt.started)
    (numbered : ∀ attempt, (change attempt).attemptNumber = attempt.attemptNumber) :
    ((attempts.map change).filter (·.started)).map (·.attemptNumber) =
      (attempts.filter (·.started)).map (·.attemptNumber) := by
  have same : (fun attempt : DispatchAttempt => attempt.started) ∘ change = (·.started) :=
    funext started
  rw [List.filter_map, List.map_map, same]
  exact List.map_congr_left fun attempt _ => numbered attempt

theorem StoredAction.startedCalls_concludeAttempt {number : Nat} :
    ((stored.concludeAttempt number completion).filter (·.started)).map (·.attemptNumber) =
      (stored.attempts.filter (·.started)).map (·.attemptNumber) := by
  apply startedCalls_map
  · intro attempt
    split <;> rfl
  · intro attempt
    split <;> rfl

theorem StoredAction.startedCalls_cancelAttempt {number : Nat} {occurredAt : Time} :
    ((stored.cancelAttempt number occurredAt reasonCode).filter (·.started)).map (·.attemptNumber) =
      (stored.attempts.filter (·.started)).map (·.attemptNumber) := by
  apply startedCalls_map
  · intro attempt
    split <;> rfl
  · intro attempt
    split <;> rfl

theorem Committed.attemptIds_kept (committed : Committed db commit after)
    (established : commit ≠ .planPersisted) (stopped : db.run.state ≠ .executing)
    (stepId : String) :
    after.attemptIds stepId = db.attemptIds stepId := by
  by_cases reserves : commit = .attemptReserved stepId
  · subst reserves
    cases committed with
    | attemptReserved reserved => exact absurd reserved.executing stopped
  by_cases closes : commit = .attemptClosed stepId
  · subst closes
    cases committed with
    | attemptClosed closed =>
        obtain ⟨_, completed, closed, conclusion⟩ := closed
        obtain ⟨_, attempt, operation, _, _, present, _, _, _, _, _, _, _, operations⟩ :=
          closed.accounts
        have same : after.operations = completed.operations := by
          cases conclusion with
          | retry | step => rfl
          | run _ cleanup => rw [cleanup.frame]
        simp only [Database.attemptIds, same, operations, Table.get?_set_self present, present,
          Option.map_some, Option.getD_some, Operation.finish, List.map_map]
        refine List.map_congr_left fun other _ => ?_
        simp only [Function.comp_apply]
        split <;> rfl
  · rw [Database.attemptIds, Database.attemptIds,
      committed.operation_kept established reserves closes]

/-- No commit starts a call of a run that is not executing. -/
theorem Committed.startedCalls_kept (committed : Committed db commit after)
    (established : commit ≠ .planPersisted) (stopped : db.run.state ≠ .executing)
    (actionId : String) :
    after.startedCalls actionId = db.startedCalls actionId := by
  cases found : db.action? actionId with
  | none =>
      have absent : after.action? actionId = none := by
        cases lookup : after.action? actionId with
        | none => rfl
        | some later =>
            obtain ⟨stored, present, _⟩ := (committed.samePlan established).actions.source lookup
            cases found.symm.trans present
      rw [Database.startedCalls, Database.startedCalls, found, absent]
  | some stored =>
      obtain ⟨later, lookup, event⟩ := committed.actionEvent established found
      simp only [Database.startedCalls, found, lookup, Option.map_some, Option.getD_some]
      cases event with
      | kept => rfl
      | reconsidered changed => rw [changed.attempts]
      | released _ before reserved =>
          rw [reserved.attempts]
          rcases before with rfl | changed
          · rfl
          · rw [changed.attempts]
      | called started =>
          subst started
          cases committed with
          | callStarted delivery => exact absurd delivery.executing stopped
      | retried _ released => exact absurd released.executing stopped
      | concluded _ change =>
          obtain ⟨_, _, _, _, attempts⟩ := change.attempts
          rw [attempts, StoredAction.startedCalls_concludeAttempt]
      | cancelled _ change =>
          rcases change.attempts with same | ⟨_, _, _, attempts⟩
          · rw [same]
          · rw [attempts, StoredAction.startedCalls_cancelAttempt]

end Commits

/-- What a run needs to end drained, and what it is once it has ended. -/
structure Winding (db : Database) : Prop where
  delivering : db.run.state = .executing → ∀ actionId stored, db.action? actionId = some stored →
    stored.action.state ∈ [.dispatchReserved, .dispatching] →
    ∃ step, db.step? stored.action.contract.stepId = some step ∧ step.state ∈ [.ready, .executing]
  drained : db.run.state ∈ [.failed, .cancelled] → Drained db

namespace Winding

theorem of_received (received : Received db) : Winding db where
  delivering := by simp [received.state]
  drained := by simp [received.state]

theorem persisted {plan : SealedPlan} (persisted : PlanPersisted db plan after) :
    Winding after := by
  have waits := persisted.run
  refine { delivering := fun executing => ?_, drained := fun ended => ?_ }
  · rw [executing] at waits
    split at waits <;> cases waits
  · rw [waits] at ended
    split at ended <;> simp at ended

variable (governed : Governed db) (winding : Winding db) (committed : Committed db commit after)
variable (established : commit ≠ .planPersisted) (drains : commit.Drains db)

include governed winding committed established drains

/-- The step of an action on its way to its delivery waits for it or executes. -/
theorem delivering_next (executing : after.run.state = .executing)
    (lookup : after.action? actionId = some later)
    (delivers : later.action.state ∈ [.dispatchReserved, .dispatching]) :
    ∃ step, after.step? later.action.contract.stepId = some step ∧
      step.state ∈ [.ready, .executing] := by
  obtain ⟨stored, found, contract⟩ := (committed.samePlan established).actions.source lookup
  have contracts : later.action.contract = stored.action.contract := contract
  rw [contracts]
  obtain ⟨again, same, event⟩ := committed.actionEvent established found
  obtain rfl := Option.mem_unique lookup same
  rcases committed.executing_cases governed.sound established executing with
    goesOn | direct | ⟨middle, decided, released, _⟩
  · have before : stored.action.state ∈ [.dispatchReserved, .dispatching] := by
      cases event with
      | kept => exact delivers
      | reconsidered changed =>
          have undecided := changed.state
          generalize later.action.state = state at undecided delivers
          cases state <;> simp at undecided delivers
      | released crossed =>
          have waiting := committed.undecided (by simp [crossed])
          rw [← goesOn, executing] at waiting
          cases waiting
      | called _ call => simp [call.reserved]
      | retried _ released => simp [released.dispatching]
      | @concluded outcome _ _ change =>
          have final := outcome.actionState_final
          rw [← change.state] at final
          generalize later.action.state = state at final delivers
          cases state <;> simp at final delivers
      | cancelled _ change => simp [change.state] at delivers
    obtain ⟨step, present, state⟩ :=
      winding.delivering (goesOn ▸ executing) actionId stored found before
    obtain ⟨now, after', stepEvent⟩ :=
      committed.stepEvent governed.sound.binding established present
    have write := governed.sound.action_write present found rfl
    refine ⟨now, after', ?_⟩
    by_contra left
    have live : step.state.terminal = false := by
      simp only [List.mem_cons, List.not_mem_nil, or_false] at state
      rcases state with ready | executes
      · simp [ready, StepState.terminal]
      · simp [executes, StepState.terminal]
    have finished : now.state.terminal = true := by
      cases stepEvent with
      | kept => exact absurd state left
      | readied advanced | released advanced | started advanced | attempted advanced
      | called advanced =>
          have target := advanced.moved.2.2
          simp [target] at left
      | executed _ finish => exact finish.ended (by simp)
      | closed ends advanced => exact advanced.ended ends
    rcases committed.closed_concerned established goesOn present after' live finished with
      concerned | ⟨command, moved⟩ | executes
    · cases committed with
      | attemptClosed closed =>
          obtain ⟨_, _, closed, _⟩ := closed
          obtain ⟨_, attempt, operation, _, _, earlier, member, isOpen, _⟩ := closed.accounts
          obtain rfl : _ = stored.action.contract.stepId := concerned
          have callable := governed.sound.readOpen_callable present
            ⟨operation, earlier, attempt, member, isOpen⟩
          simp [RunStep.callable, write] at callable
      | cleanedUp cleanup => exact cleanup.run.changed goesOn
      | actionConcluded concluded =>
          rename_i outcome
          obtain ⟨other, otherFound, own⟩ := concerned
          obtain rfl := governed.sound.binding.ownStep _ _ _ _ otherFound found own
          obtain ⟨ended, again, final⟩ := concluded.concluded_state
          obtain rfl := Option.mem_unique lookup again
          have ends := outcome.actionState_final
          rw [← final] at ends
          generalize later.action.state = state at ends delivers
          cases state <;> simp at ends delivers
      | _ => exact concerned.elim
    · obtain rfl := drains.moved _ _ moved
      subst moved
      cases committed with
      | stepMoved readied =>
          obtain rfl := Option.mem_unique present readied.found
          have pending := readied.advanced.moved.1
          simp [pending] at state
    · subst executes
      cases committed with
      | stepExecuted executed =>
          obtain rfl := Option.mem_unique present executed.found
          have read := executed.uncalled.1
          rw [write] at read
          cases read
  · obtain ⟨step, present, write, _⟩ := governed.sound.binding.actions actionId stored found
    rw [governed.sound.binding.readOnly direct _ step present] at write
    cases write
  · obtain ⟨_, now, readied, ready⟩ := governed.members.released decided released found
    exact ⟨now, readied, by simp [ready]⟩

/-- Every way in which a run fails or is cancelled leaves it drained. -/
theorem drained_next (ended : after.run.state ∈ [.failed, .cancelled]) : Drained after := by
  by_cases goesOn : after.run = db.run
  · rw [goesOn] at ended
    exact (winding.drained ended).kept governed committed established goesOn ended
  have other : ∀ state, after.run.state = state → state ∉ [.failed, .cancelled] → Drained after :=
    fun state target outside => absurd (target ▸ ended) outside
  cases committed with
  | recorded | actionReleased => exact absurd rfl goesOn
  | planPersisted => exact absurd rfl established
  | runMoved moved =>
      rename_i command
      have target := moved.run.moved
      have unplanned : db.run.approvalRequired = none → Drained after := fun undecided =>
        .of_unplanned governed.sound undecided (by rw [moved.frame]) (by rw [moved.frame])
          (by rw [moved.frame])
      cases command with
      | receive => exact target.elim
      | recordPlan | releaseApprovedPlan | rejectApproval => exact absurd (by simp) moved.ordinary
      | markValidated | complete => exact other _ target.2.1 (by simp)
      | activatePlan => exact other _ target.2.2 (by split <;> simp)
      | fail =>
          rcases drains.failed rfl with early | ⟨executing, finished⟩
          · exact unplanned (governed.sound.undecided early)
          · exact .of_idle governed executing finished (winding.delivering executing) moved
      | cancel =>
          obtain ⟨undecided, uncontrolled⟩ := moved.uncontrolled (by simp)
          cases required : db.run.approvalRequired with
          | none => exact unplanned required
          | some writes =>
              cases writes with
              | true => exact absurd required undecided
              | false =>
                  exact absurd (uncontrolled required)
                    (governed.sound.binding.controlled (by simp [required]))
  | planActivated activated => exact other _ activated.run.moved.2.2 (by split <;> simp)
  | stepMoved moved => exact absurd (by rw [moved.frame]) goesOn
  | stepExecuted executed => exact absurd (by rw [executed.frame]) goesOn
  | approvalsChanged changed => exact absurd (by rw [changed.frame]) goesOn
  | setReleased _ released => exact other _ released.run.moved.2.1 (by simp)
  | setClosed decided closed => exact closed.drained governed decided
  | runCancelled cancelled => exact cancelled.drained governed
  | attemptReserved reserved => exact absurd (by rw [reserved.frame]) goesOn
  | attemptClosed closed =>
      rename_i focal
      have committed : Committed db (.attemptClosed focal) after := .attemptClosed closed
      obtain ⟨_, completed, closed, conclusion⟩ := closed
      cases conclusion with
      | retry | step => exact absurd (by rw [closed.frame]) goesOn
      | run _ cleanup =>
          refine .of_cleanup governed committed rfl ?_ closed.samePlan (by rw [closed.frame])
            (by rw [closed.frame]) ?_ cleanup rfl (fun _ _ => rfl) (by simp)
            (fun stepId differs concerned => differs concerned.symm)
          · have executing := cleanup.executing
            rw [closed.frame] at executing
            exact executing
          · intro stepId differs
            obtain ⟨_, _, _, _, _, _, _, _, _, _, _, _, _, operations⟩ := closed.accounts
            rw [operations]
            exact Table.get?_set_ne differs
  | callStarted started => exact absurd (by rw [started.frame]) goesOn
  | actionConcluded concluded =>
      rename_i focal outcome
      have committed : Committed db (.actionConcluded focal outcome) after :=
        .actionConcluded concluded
      have final := concluded.concluded_state
      cases concluded with
      | step => exact absurd rfl goesOn
      | run found change _ cleanup =>
          refine .of_cleanup governed committed rfl cleanup.executing
            ⟨.refl _, .refl _, .refl _, rfl, rfl, rfl⟩
            rfl rfl (fun _ _ => rfl) cleanup rfl ?_ ?_ ?_
          · intro actionId differs
            exact Table.get?_set_ne fun same => differs (congrArg some same.symm)
          · intro actionId same
            obtain rfl := Option.some.inj same
            obtain ⟨later, lookup, state⟩ := final
            exact ⟨outcome, later, lookup, state⟩
          · intro stepId differs concerned
            obtain ⟨stored, present, own⟩ := concerned
            obtain rfl := Option.mem_unique found present
            exact differs own.symm
  | cleanedUp cleanup =>
      exact .of_cleanup governed (.cleanedUp cleanup) rfl cleanup.executing
        ⟨.refl _, .refl _, .refl _, rfl, rfl, rfl⟩ rfl rfl (fun _ _ => rfl) cleanup rfl
          (fun _ _ => rfl)
        (by simp) (fun stepId differs concerned => differs concerned.symm)

end Winding

theorem Winding.next (governed : Governed db) (winding : Winding db)
    (stepped : serviceMachine.step db transaction after) (sent : transaction.Sent)
    (drains : transaction.Drains db) : Winding after := by
  obtain ⟨commit, _, committed, spared⟩ :=
    ServiceTransaction.commits_draining governed.sound stepped sent drains
  by_cases established : commit ≠ .planPersisted
  · exact ⟨fun executing _ _ => delivering_next governed winding committed established
      spared executing, drained_next governed winding committed established spared⟩
  · rw [not_not] at established
    subst established
    cases committed with
    | planPersisted change => exact .persisted change

theorem Winding.reachable (reached : serviceMachine.ReachableWhere
    (fun db transaction => transaction.Sent ∧ transaction.Drains db) db) : Governed db ∧
      Winding db := by
  refine reached.invariant (fun db => Governed db ∧ Winding db)
    (fun received => ⟨.of_received received, .of_received received⟩) ?_
  rintro db transaction after ⟨governed, winding⟩ ⟨sent, drains⟩ stepped
  exact ⟨governed.next stepped, winding.next governed stepped sent drains⟩

/-- What can happen to a run that has ended: its row stays, and no attempt and no
call is added to those it has. -/
structure Database.Settles (db later : Database) : Prop where
  run : later.run = db.run
  attempts : ∀ stepId, later.attemptIds stepId = db.attemptIds stepId
  calls : ∀ actionId, later.startedCalls actionId = db.startedCalls actionId

theorem Governed.settles {later : Database} (governed : Governed db)
    (ended : db.run.state ∈ [.failed, .cancelled]) (run : serviceMachine.Run db later) :
    db.Settles later := by
  have settled : Governed later ∧ db.Settles later := by
    refine run.preserves (fun later => Governed later ∧ db.Settles later)
      ⟨governed, rfl, fun _ => rfl, fun _ => rfl⟩ ?_
    rintro middle transaction after ⟨governed, settles⟩ _ stepped
    refine ⟨governed.next stepped, ?_⟩
    obtain ⟨commit, _, committed⟩ := governed.sound.commits stepped
    have finished : middle.run.state ∈ [.failed, .cancelled] := settles.run ▸ ended
    have established : commit ≠ .planPersisted := by
      rintro rfl
      cases committed with
      | planPersisted change => simp [change.validated] at finished
    have stopped : middle.run.state ≠ .executing := by
      intro executing
      simp [executing] at finished
    refine {
      run := ?_
      attempts := fun stepId =>
        (committed.attemptIds_kept established stopped stepId).trans (settles.attempts stepId)
      calls := fun actionId =>
        (committed.startedCalls_kept established stopped actionId).trans (settles.calls actionId) }
    rcases committed.run established with same | ⟨_, _, _, advanced⟩
    · exact same.trans settles.run
    · have live := advanced.live
      simp only [List.mem_cons, List.not_mem_nil, or_false] at finished
      rcases finished with failed | cancelled
      · simp [failed, RunState.terminal] at live
      · simp [cancelled, RunState.terminal] at live
  exact settled.2

/-- No run that failed or was cancelled has work left that could be taken up again,
as long as its units of work are isolated and its worker fails no run whose plan still
waits: every step is closed or has its call in flight, none waits for a retry, no action
can still be decided or dispatched, no authorization set is open, and nothing later
starts a call. -/
theorem terminal_runs_drained {commits : CommitRule}
    (reached : (unitOfWorkMachine commits).ReachableWhere
      (fun db work => (work.transaction.Sent ∧ work.transaction.Drains db) ∧
        work.Isolated commits db) db)
    (ended : db.run.state ∈ [.failed, .cancelled]) :
    Drained db ∧
    (∀ planHash controlVersion stepId step, db.step? stepId = some step →
      db.executingReadDisposition planHash controlVersion stepId step ≠ .ok .retryBackoff) ∧
    ∀ later, (unitOfWorkMachine commits).RunWhere
      (fun db work => work.Isolated commits db) db later →
      db.Settles later := by
  obtain ⟨governed, winding⟩ := Winding.reachable (isolated_reachable reached)
  have drained := winding.drained ended
  refine ⟨drained, ?_, fun later isolated => governed.settles ended
    (isolated_run (isolated.weaken fun alone => ⟨trivial, alone⟩))⟩
  intro planHash controlVersion stepId step found classified
  have accepted := classified
  simp only [Database.executingReadDisposition, bind_ok, require_ok] at accepted
  obtain ⟨_, ⟨_, read, executing, _⟩, _⟩ := accepted
  rcases drained.steps stepId step found with finished | ⟨_, inFlight⟩
  · simp [executing, StepState.terminal] at finished
  · have isOpen := governed.sound.readOpen_of_read found read inFlight
    have impossible := (governed.sound.disposition_open found classified).mpr isOpen
    cases impossible

namespace PlannedRead

/-- The transactions that leave a run drained, where that can be read off its rows. -/
def draining (db : Database) : ServiceTransaction → Bool
  | .failRun _ => db.run.state = .executing && (RunWorker.failedStep db).isSome
  | .advanceStep _ _ command _ _ => command = .markReady
  | .advanceRun _ command _ _ => command ≠ .fail
  | _ => true

theorem draining_drains
    (harmless : draining db transaction = true) : transaction.Sent ∧ transaction.Drains db := by
  cases transaction with
  | failRun now =>
      simp only [draining, Bool.and_eq_true, decide_eq_true_eq] at harmless
      obtain ⟨executing, found⟩ := harmless
      exact ⟨trivial, by simp [executing], fun _ absent => by simp [absent] at found⟩
  | _ => simp_all [draining, ServiceTransaction.Sent, ServiceTransaction.Drains]

/-- The worker fails while its step waits for a retry. -/
def backedOffFailed : Option Database :=
  ServiceTransaction.run? draining (timesOut ++ [fun _ => .failRun 6]) admitted

theorem terminal_runs_drained_backoff : ∃ db, backedOffFailed = some db ∧ Drained db := by
  have fails : backedOffFailed.any (fun db => db.run.state = .failed) = true := by decide +kernel
  obtain ⟨db, ran, failed⟩ := (Option.any_eq_true _ _).mp fails
  have start : serviceMachine.ReachableWhere
    (fun db transaction => draining db transaction = true) admitted := .start admitted_received
  have reached : serviceMachine.ReachableWhere
      (fun db transaction => transaction.Sent ∧ transaction.Drains db) db :=
    (ServiceTransaction.run?_reachable start ran).weaken draining_drains
  exact ⟨db, ran, (terminal_runs_drained (serial_reachable reached)
    (by simp [of_decide_eq_true failed])).1⟩

/-- The reservation of a second attempt, made after the backoff of the first one. -/
def secondAttempt (db : Database) : Except Rejection (ReadReservation × Database) :=
  ControlledReadExecutor.reserve adapter db { stepId := "step", inputPayload := "{}" }
    "second" 1000005

theorem attempt_after_failure : ∃ read db after step, backedOff = some read ∧
    backedOffFailed = some db ∧
    db.run.state = .failed ∧ db.step? "step" = some step ∧ step.state = .failed ∧
    ReadCommitted ⟨.reserveRead adapter { stepId := "step", inputPayload := "{}" } "second" 1000005,
      read⟩ db after ∧ after.ReadOpen "step" := by
  have opens : backedOff.any (fun read => backedOffFailed.any fun db => db.run.state = .failed &&
      (db.step? "step").any (fun step => step.state = .failed) &&
      (secondAttempt { db with run := read.run, steps := read.steps }).toOption.any fun answer =>
        answer.2.run = read.run && answer.2.steps = read.steps &&
        (answer.2.operations.get? "step").any fun operation =>
          operation.attempts.any fun attempt => attempt.completion = none) = true := by
            decide +kernel
  obtain ⟨read, before, opens⟩ := (Option.any_eq_true _ _).mp opens
  obtain ⟨db, ran, rows⟩ := (Option.any_eq_true _ _).mp opens
  simp only [Bool.and_eq_true, Option.any_eq_true, List.any_eq_true, decide_eq_true_eq] at rows
  obtain ⟨⟨failed, step, found, closed⟩, ⟨reservation, reserved⟩, accepted,
    ⟨sameRun, sameSteps⟩, operation, present, attempt, member, isOpen⟩ := rows
  exact ⟨read, db, _, step, before, ran, failed, found, closed,
    .repeated (ok_of_toOption accepted) ⟨sameRun, sameSteps⟩, operation, present, attempt,
      member, isOpen⟩

/-- The worker fails after the plan was recorded and before it was activated. -/
def plannedFailed : Option Database :=
  ServiceTransaction.run? (fun _ _ => true) (timesOut.take 2 ++ [fun _ => .failRun 3]) admitted

/-- The step of the failed run is still pending. -/
theorem failed_step_waits : ∃ db step, plannedFailed = some db ∧ serviceMachine.Reachable db ∧
    db.run.state = .failed ∧ db.step? "step" = some step ∧ step.state = .pending ∧
      ¬ Drained db := by
  have fails : plannedFailed.any (fun db => db.run.state = .failed &&
      (db.step? "step").any fun step => step.state = .pending) = true := by decide +kernel
  obtain ⟨db, ran, rows⟩ := (Option.any_eq_true _ _).mp fails
  simp only [Bool.and_eq_true, Option.any_eq_true, decide_eq_true_eq] at rows
  obtain ⟨failed, step, found, pending⟩ := rows
  have start : serviceMachine.ReachableWhere (fun _ _ => true = true) admitted :=
    .start admitted_received
  refine ⟨db, step, ran, (ServiceTransaction.run?_reachable start ran).reachable, failed,
    found, pending, fun drained => ?_⟩
  rcases drained.steps "step" step found with finished | ⟨executing, _⟩
  · simp [pending, StepState.terminal] at finished
  · simp [pending] at executing

end PlannedRead

end MarketingAgents
