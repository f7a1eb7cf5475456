import MarketingAgents.Services.PlanSoundness

namespace MarketingAgents

open Library

/-! # What one commit does to one step

Every commit that keeps the plan leaves a step alone, starts it, or closes it
for one of a few reasons.  The invariants of the steps look at these events
only.
-/

/-- Every step that a step depends on has succeeded. -/
def Database.DependenciesSucceeded (db : Database) (step : RunStep) : Prop :=
  ∀ key ∈ step.dependencyKeys, ∃ otherId other, db.step? otherId = some other ∧ other.key = key ∧
    other.state = .succeeded

/-- The commit is about the work of this step: its attempt, its delivery or its denial. -/
def Commit.Concerns (db : Database) (stepId : String) : Commit → Prop
  | .attemptClosed focal | .cleanedUp focal => focal = stepId
  | .actionConcluded actionId _ => ∃ stored, db.action? actionId = some stored ∧
      stored.action.contract.stepId = stepId
  | _ => False

/-- Why a commit may close a step. -/
inductive StepClosing (db : Database) (commit : Commit) (stepId : String)
    (step : RunStep) : Prop where
  | waiting (idle : step.state ≠ .executing)
  | concerned (focal : commit.Concerns db stepId)
  | ordinary {command : StepLifecycleCommand} (sent : commit = .stepMoved stepId command)
      (uncontrolled : command ∈ [.start, .succeed, .fail, .cancel] →
        db.operation? stepId step.runtimePolicy.operationKey = none)
  | uncallable (read : step.effect = .read) (uncalled : step.runtimePolicy.attemptKind = .noCall)
  | backedOff {planHash : String} {controlVersion : Nat} (read : step.effect = .read)
      (classified : db.executingReadDisposition planHash controlVersion stepId step =
        .ok .retryBackoff)
  | unstarted {actionId : String} {stored : StoredAction}
      (found : db.action? actionId = some stored)
      (own : stored.action.contract.stepId = stepId) (pending : preCall stored.action)

/-- What one commit may do to one step. -/
inductive StepEvent (db : Database) (commit : Commit) (stepId : String) (step : RunStep) :
    RunStep → Prop where
  | kept : StepEvent db commit stepId step step
  | readied {now : RunStep} (advanced : step.Advanced .markReady now)
      (dependencies : db.DependenciesSucceeded step) : StepEvent db commit stepId step now
  | released {now : RunStep} (advanced : step.Advanced .releaseApproval now) :
      StepEvent db commit stepId step now
  | started {now : RunStep} (advanced : step.Advanced .start now)
      (uncontrolled : db.operation? stepId step.runtimePolicy.operationKey = none) :
      StepEvent db commit stepId step now
  | attempted {now : RunStep} (advanced : step.Advanced .start now)
      (reserved : commit = .attemptReserved stepId) : StepEvent db commit stepId step now
  | called {now : RunStep} {actionId : String} {stored : StoredAction}
      (advanced : step.Advanced .startReservedWrite now)
      (dependencies : db.DependenciesSucceeded step)
      (started : commit = .callStarted actionId) (found : db.action? actionId = some stored)
      (own : stored.action.contract.stepId = stepId) : StepEvent db commit stepId step now
  | executed {middle now : RunStep} (start : step.Advanced .start middle)
      (finish : middle.Advanced .succeed now) (uncallable : step.effect = .read ∧
        step.runtimePolicy.attemptKind = .noCall) (independent : step.dependencyKeys = []) :
      StepEvent db commit stepId step now
  | closed {command : StepLifecycleCommand} {now : RunStep}
      (ends : command ∈ [.succeed, .fail, .reject, .cancel, .skip])
      (advanced : step.Advanced command now)
      (closing : StepClosing db commit stepId step) : StepEvent db commit stepId step now

theorem Database.dependenciesSucceeded_iff :
    RunStepLifecycleService.dependenciesSucceeded db step ↔ db.DependenciesSucceeded step := by
  simp only [RunStepLifecycleService.dependenciesSucceeded, List.all_eq_true, List.any_eq_true,
    Bool.and_eq_true, decide_eq_true_eq, DependenciesSucceeded, step?, Table.mem_rows_iff]
  refine forall₂_congr fun key listed => ?_
  constructor
  · rintro ⟨other, ⟨otherId, found⟩, named, succeeded⟩
    exact ⟨otherId, other, found, named, succeeded⟩
  · rintro ⟨otherId, other, found, named, succeeded⟩
    exact ⟨other, ⟨otherId, found⟩, named, succeeded⟩

variable {db after : Database} {stepId : String} {step : RunStep}

theorem PlanBinding.fence_dependencies (binding : PlanBinding db)
    (fence : db.releaseFence authority stored)
    (found : db.step? authority.stepId = some step) : db.DependenciesSucceeded step := by
  simp only [Database.releaseFence, Bool.and_eq_true, Bool.not_eq_true',
    Database.unsatisfiedDependency,
    found, List.any_eq_false, decide_eq_true_eq, not_and, not_not] at fence
  intro key listed
  obtain ⟨otherId, other, lookup, named⟩ := binding.dependencies _ step found key listed
  exact ⟨otherId, other, lookup, named,
    fence.2 other (Table.mem_rows_of_get? lookup) (named ▸ listed)⟩

theorem StepsAdvanced.cases (advanced : StepsAdvanced command selected before later)
    (current : ∀ entry ∈ selected, before.get? entry.1 = some entry.2)
    (found : before.get? stepId = some step) :
    ∃ now, later.get? stepId = some now ∧
      (now = step ∨ (stepId, step) ∈ selected ∧ step.Advanced command now) := by
  by_cases listed : stepId ∈ selected.map Prod.fst
  · obtain ⟨entry, member, rfl⟩ := List.mem_map.mp listed
    obtain rfl := Option.some.inj (found.symm.trans (current entry member))
    obtain ⟨now, lookup, change⟩ := advanced.moved entry member
    exact ⟨now, lookup, .inr ⟨member, change⟩⟩
  · exact ⟨step, (advanced.others stepId listed).trans found, .inl rfl⟩

theorem Database.executingReadDisposition_at {controlVersion : Nat}
    (operations : after.operations.get? stepId = db.operations.get? stepId) :
    after.executingReadDisposition planHash controlVersion stepId step =
      db.executingReadDisposition planHash controlVersion stepId step := by
  have attempts : after.listAttempts stepId = db.listAttempts stepId := by
    funext operationKey
    rw [listAttempts, listAttempts, operation?, operation?, operations]
  rw [executingReadDisposition, executingReadDisposition, attempts]

/-- An event in a state that agrees with another on the step's rows is one in that state. -/
theorem StepEvent.transport
    (event : StepEvent middle commit stepId step now) (steps : middle.steps = db.steps)
    (actions : middle.actions = db.actions)
    (operations : middle.operations.get? stepId = db.operations.get? stepId) :
    StepEvent db commit stepId step now := by
  have action : middle.action? = db.action? := by
    funext actionId
    rw [Database.action?, Database.action?, actions]
  have operation : middle.operation? stepId = db.operation? stepId := by
    funext operationKey
    rw [Database.operation?, Database.operation?, operations]
  have dependencies : middle.DependenciesSucceeded step → db.DependenciesSucceeded step := by
    simp only [Database.DependenciesSucceeded, Database.step?, steps, imp_self]
  cases event with
  | kept => exact .kept
  | readied advanced succeeded => exact .readied advanced (dependencies succeeded)
  | released advanced => exact .released advanced
  | started advanced uncontrolled => exact .started advanced (operation ▸ uncontrolled)
  | attempted advanced reserved => exact .attempted advanced reserved
  | called advanced succeeded started found own =>
      exact .called advanced (dependencies succeeded) started (action ▸ found) own
  | executed start finish uncallable independent =>
      exact .executed start finish uncallable independent
  | closed ends advanced closing =>
      refine .closed ends advanced ?_
      cases closing with
      | waiting idle => exact .waiting idle
      | concerned focal =>
          refine .concerned ?_
          cases commit with
          | actionConcluded => simpa only [Commit.Concerns, action] using focal
          | _ => exact focal
      | ordinary sent uncontrolled => exact .ordinary sent (operation ▸ uncontrolled)
      | uncallable read uncalled => exact .uncallable read uncalled
      | backedOff read classified =>
          exact .backedOff read ((Database.executingReadDisposition_at operations).symm.trans
            classified)
      | unstarted found own pending => exact .unstarted (action ▸ found) own pending

namespace TerminalExecutionCleanupService

variable {commit : Commit} {planHash failedStepId : String} {focalActionId : Option String}
variable {failedStep : RunStep}

/-- Why a cleanup closed a sibling of the step that failed. -/
theorem CleanedUp.sibling_event
    (cleanup : CleanedUp db planHash failedStepId focalActionId failedStep after)
    (differs : stepId ≠ failedStepId) (found : db.step? stepId = some step) :
    ∃ now, after.step? stepId = some now ∧ StepEvent db commit stepId step now := by
  obtain ⟨control, actions, _, _, planned, _, closed⟩ := cleanup.closed
  obtain ⟨now, lookup, cleaned⟩ := closed stepId step differs found
  refine ⟨now, lookup, ?_⟩
  unfold SiblingCleaned at cleaned
  cases state : step.state with
  | pending | ready | awaitingApproval =>
      simp only [state] at cleaned
      exact .closed (by simp) cleaned (.waiting (by simp [state]))
  | executing =>
      simp only [state] at cleaned
      obtain ⟨isIdle, idle, change⟩ := cleaned
      cases isIdle with
      | false =>
          obtain rfl : now = step := change
          exact .kept
      | true =>
          refine .closed (by simp) change ?_
          unfold idleSibling at idle
          split at idle
          · obtain ⟨entry, member, own⟩ := List.mem_map.mp (of_decide_eq_true (Except.ok.inj idle))
            obtain ⟨listed, pending⟩ := List.mem_filter.mp member
            simp only [decide_eq_true_eq] at pending
            exact .unstarted (Table.get?_eq_some_iff.mpr
              ((planActions_sublist planned).subset listed)) own pending.2
          · rename_i notWrite
            have read : step.effect = .read := by
              cases effect : step.effect with
              | read => rfl
              | write => exact absurd effect notWrite
            split at idle
            · rename_i uncalled
              exact .uncallable read uncalled
            · cases classified : db.executingReadDisposition planHash control.version
                stepId step with
              | error reason => simp [classified, reject] at idle
              | ok disposition =>
                  simp only [classified, Except.ok.injEq, decide_eq_true_eq] at idle
                  exact .backedOff read (idle ▸ classified)
  | succeeded | failed | rejected | cancelled | skipped =>
      simp only [state] at cleaned
      rw [cleaned]
      exact .kept

theorem CleanedUp.event
    (cleanup : CleanedUp db planHash failedStepId focalActionId failedStep after)
    (focal : commit.Concerns db failedStepId) (found : db.step? stepId = some step) :
    ∃ now, after.step? stepId = some now ∧ StepEvent db commit stepId step now := by
  by_cases same : stepId = failedStepId
  · subst same
    obtain ⟨before, present, advanced⟩ := cleanup.failed
    obtain rfl := Option.mem_unique found present
    exact ⟨failedStep, cleanup.stored, .closed (by simp) advanced (.concerned focal)⟩
  · exact cleanup.sibling_event same found

end TerminalExecutionCleanupService

section Commits

variable {commit : Commit}

theorem StepMoved.event (moved : StepMoved db stepId command before now after) :
    StepEvent db (.stepMoved stepId command) stepId before now := by
  have advanced := moved.advanced
  have unbounded := moved.unbounded
  have target := advanced.moved
  have closes : command ∈ [.succeed, .fail, .reject, .cancel, .skip] →
      StepEvent db (.stepMoved stepId command) stepId before now := fun ends =>
    .closed ends advanced (.ordinary rfl moved.uncontrolled)
  cases command with
  | initializeStep => exact target.elim
  | markReady => exact .readied advanced (Database.dependenciesSucceeded_iff.mp (moved.ready rfl))
  | start => exact .started advanced (moved.uncontrolled (by simp))
  | waitForApproval | releaseApproval | startReservedWrite =>
      exact absurd (by simp) (unbounded target.2.1)
  | succeed | fail | reject | cancel | skip => exact closes (by simp)

theorem RunCancelled.event (cancelled : RunCancelled db after)
    (found : db.step? stepId = some step) :
    ∃ now, after.step? stepId = some now ∧ StepEvent db commit stepId step now := by
  obtain ⟨control, selected, _, current, swept, _, closed⟩ := cancelled.closed
  obtain ⟨now, lookup, change⟩ := closed stepId step found
  refine ⟨now, lookup, ?_⟩
  unfold StepCancelled at change
  cases state : step.state with
  | pending | ready =>
      simp only [state] at change
      exact .closed (by simp) change (.waiting (by simp [state]))
  | executing =>
      simp only [state] at change
      split at change
      · split at change
        · rename_i listed
          obtain ⟨entry, member, own⟩ := List.mem_map.mp listed
          obtain ⟨_, _, preCalled⟩ := swept.cancelled entry member
          exact .closed (by simp) change (.unstarted (current entry member) own
            (preCall_iff.mpr ⟨preCalled.released, preCalled.uncalled⟩))
        · obtain ⟨rfl, _⟩ := change
          exact .kept
      · rename_i notWrite
        obtain ⟨disposition, classified, change⟩ := change
        split at change
        · rename_i backoff
          subst backoff
          have read : step.effect = .read := by
            cases effect : step.effect with
            | read => rfl
            | write => exact absurd effect notWrite
          exact .closed (by simp) change (.backedOff read classified)
        · rw [change]
          exact .kept
  | awaitingApproval | succeeded | failed | rejected | cancelled | skipped =>
      simp only [state] at change
      rw [change]
      exact .kept

theorem ApprovalBoundaryService.SetReleased.event (released : SetReleased middle after)
    (found : middle.step? stepId = some step) :
    ∃ now, after.step? stepId = some now ∧ StepEvent db commit stepId step now := by
  obtain ⟨_, _, _, _, _, _, _, current, _, moved, _⟩ := released.members
  obtain ⟨now, lookup, rfl | ⟨_, advanced⟩⟩ := moved.cases current found
  · exact ⟨now, lookup, .kept⟩
  · exact ⟨now, lookup, .released advanced⟩

theorem ApprovalBoundaryService.SetClosed.event (closed : SetClosed middle after)
    (found : middle.step? stepId = some step) :
    ∃ now, after.step? stepId = some now ∧ StepEvent db commit stepId step now := by
  obtain ⟨now, lookup, rejected | cancelled⟩ := closed.steps stepId step found
  · exact ⟨now, lookup, .closed (by simp) rejected (.waiting (by simp [rejected.moved.1]))⟩
  · refine ⟨now, lookup, .closed (by simp) cancelled (.waiting ?_)⟩
    intro executing
    have waiting := cancelled.moved.1
    simp [executing] at waiting

theorem ReadReserved.event
    (reserved : ReadReserved db focal attempt after) (found : db.step? stepId = some step) :
    ∃ now, after.step? stepId = some now ∧
      StepEvent db (.attemptReserved focal) stepId step now := by
  have change := reserved.step
  rw [Database.step?]
  generalize after.steps = steps at change ⊢
  cases change with
  | first present _ _ advanced =>
      rw [Table.get?_set present]
      split
      · rename_i same
        subst same
        obtain rfl := Option.mem_unique found present
        exact ⟨_, rfl, .attempted advanced rfl⟩
      · exact ⟨step, found, .kept⟩
  | retry => exact ⟨step, found, .kept⟩

theorem ReadClosed.event (closed : ReadClosed db focal after)
    (found : db.step? stepId = some step) :
    ∃ now, after.step? stepId = some now ∧ StepEvent db (.attemptClosed focal) stepId step now := by
  obtain ⟨completion, completed, closed, conclusion⟩ := closed
  have steps : completed.steps = db.steps := by rw [closed.frame]
  have present : completed.step? stepId = some step := by rw [Database.step?, steps]; exact found
  cases conclusion with
  | retry => exact ⟨step, present, .kept⟩
  | step _ ends stepFound advanced =>
      rw [Database.step?, Table.get?_set stepFound]
      split
      · rename_i same
        subst same
        obtain rfl := Option.mem_unique present stepFound
        refine ⟨_, rfl, .closed ?_ advanced (.concerned rfl)⟩
        rcases ends with rfl | rfl <;> simp
      · exact ⟨step, present, .kept⟩
  | run _ cleanup =>
      by_cases same : stepId = focal
      · subst same
        obtain ⟨before, executing, advanced⟩ := cleanup.failed
        obtain rfl := Option.mem_unique present executing
        exact ⟨_, cleanup.stored, .closed (by simp) advanced (.concerned rfl)⟩
      · obtain ⟨now, lookup, event⟩ := cleanup.sibling_event same present
        refine ⟨now, lookup, event.transport steps (by rw [closed.frame]) ?_⟩
        obtain ⟨_, _, _, _, _, _, _, _, _, _, _, _, _, operations⟩ := closed.accounts
        rw [operations, Table.get?_set_ne same]

theorem DeliveryStarted.event (binding : PlanBinding db)
    (started : DeliveryStarted db actionId after) (found : db.step? stepId = some step) :
    ∃ now, after.step? stepId = some now ∧
      StepEvent db (.callStarted actionId) stepId step now := by
  obtain ⟨authority, _, _, call, own, change, _⟩ := started.call
  rw [Database.step?]
  generalize after.steps = steps at change ⊢
  cases change with
  | first present advanced =>
      rw [Table.get?_set present]
      split
      · rename_i same
        obtain rfl := Option.some.inj (found.symm.trans (same ▸ present))
        exact ⟨_, rfl, .called advanced (binding.fence_dependencies call.fence present)
          rfl call.found (own.symm.trans same.symm)⟩
      · exact ⟨step, found, .kept⟩
  | retry => exact ⟨step, found, .kept⟩

theorem WriteConcluded.event
    (concluded : WriteConcluded db actionId outcome after) (found : db.step? stepId = some step) :
    ∃ now, after.step? stepId = some now ∧
      StepEvent db (.actionConcluded actionId outcome) stepId step now := by
  cases concluded with
  | step actionFound concluded present advanced =>
      rw [Database.step?, Table.get?_set present]
      split
      · rename_i same
        obtain rfl := Option.some.inj (found.symm.trans (same ▸ present))
        refine ⟨_, rfl, .closed ?_ advanced (.concerned ⟨_, actionFound, same.symm⟩)⟩
        cases outcome <;> simp [WriteOutcome.stepCommand, WriteOutcome.reasonCode]
      · exact ⟨step, found, .kept⟩
  | run actionFound _ _ cleanup => exact cleanup.event ⟨_, actionFound, rfl⟩ found

theorem PlanPersisted.step_waits (persisted : PlanPersisted db plan after)
    (found : after.step? stepId = some step) :
    step.state = .pending ∨ step.state = .awaitingApproval ∧ step.effect = .write := by
  obtain ⟨planned, present, _⟩ := persisted.source found
  obtain ⟨now, lookup, rfl | ⟨_, advanced⟩⟩ := persisted.steps.cases
    (fun _ member => Table.get?_eq_some_iff.mpr (List.mem_filter.mp member).1) present
  · obtain rfl := Option.mem_unique found lookup
    exact .inl (plan.step_fresh present).1
  · obtain rfl := Option.mem_unique found lookup
    exact .inr ⟨advanced.moved.2.2, advanced.identity.2.1.trans advanced.moved.2.1⟩

theorem PlanPersisted.action_fresh {actionId : String}
    (persisted : PlanPersisted db plan after) (unplanned : ∀ actionId, db.action? actionId = none)
    (found : after.action? actionId = some stored) :
    stored.action.state = .awaitingApproval ∧ stored.attempts = [] := by
  obtain ⟨epoch, proposed, lookup⟩ := persisted.action_epoch unplanned found
  obtain ⟨member, _, _, memberProposed⟩ :=
    epoch.action_member (plan.approvalBound epoch proposed).2.1 lookup
  exact ⟨memberProposed.row.1, memberProposed.row.2.1⟩

/-- Every commit of an established plan is one event for each step. -/
theorem Committed.stepEvent (binding : PlanBinding db) (committed : Committed db commit after)
    (established : commit ≠ .planPersisted) (found : db.step? stepId = some step) :
    ∃ now, after.step? stepId = some now ∧ StepEvent db commit stepId step now := by
  cases committed with
  | recorded | actionReleased => exact ⟨step, found, .kept⟩
  | planPersisted => exact absurd rfl established
  | runMoved moved => exact ⟨step, by rw [moved.frame]; exact found, .kept⟩
  | approvalsChanged changed => exact ⟨step, by rw [changed.frame]; exact found, .kept⟩
  | planActivated activated =>
      obtain ⟨now, lookup, rfl | ⟨listed, advanced⟩⟩ := activated.steps.cases
        (fun entry member => (Database.mem_stepsWhere.mp member).1) found
      · exact ⟨now, lookup, .kept⟩
      · have root : step.dependencyKeys = [] := by simpa using (Database.mem_stepsWhere.mp listed).2
        exact ⟨now, lookup, .readied advanced (by simp [Database.DependenciesSucceeded, root])⟩
  | stepMoved moved =>
      rw [Database.step?, moved.steps, Table.get?_set moved.found]
      split
      · rename_i same
        subst same
        obtain rfl := Option.mem_unique found moved.found
        exact ⟨_, rfl, moved.event⟩
      · exact ⟨step, found, .kept⟩
  | stepExecuted executed =>
      rw [Database.step?, executed.steps, Table.get?_set executed.found]
      split
      · rename_i same
        subst same
        obtain rfl := Option.mem_unique found executed.found
        exact ⟨_, rfl, .executed executed.start executed.finish executed.uncalled
          executed.independent⟩
      · exact ⟨step, found, .kept⟩
  | setReleased decided released => exact released.event (by rw [decided.frame]; exact found)
  | setClosed decided closed => exact closed.event (by rw [decided.frame]; exact found)
  | runCancelled cancelled => exact cancelled.event found
  | attemptReserved reserved => exact reserved.event found
  | attemptClosed closed => exact closed.event found
  | callStarted started => exact started.event binding found
  | actionConcluded concluded => exact concluded.event found
  | cleanedUp cleanup => exact cleanup.event rfl found

theorem StepEvent.terminal_kept (event : StepEvent db commit stepId step now)
    (terminal : step.state.terminal = true) : now = step := by
  have dead : ∀ {command later}, ¬ step.Advanced command later := fun advanced => by
    rw [advanced.live] at terminal
    cases terminal
  cases event with
  | kept => rfl
  | readied advanced | released advanced | started advanced | attempted advanced | called advanced
  | executed advanced | closed _ advanced => exact absurd advanced dead

end Commits

end MarketingAgents
