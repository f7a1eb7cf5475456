import MarketingAgents.Persistence.ExecutionControlEffects
import MarketingAgents.Services.Lifecycles
import MarketingAgents.Services.PlanPersistence
import MarketingAgents.Services.TransitionEffects

namespace MarketingAgents

open Library

/-! # What the lifecycle services' transactions changed -/

variable {db after : Database} {stepId : String} {occurredAt : Time}

/-- One control follows another when it only starts, is cancelled or counts its writes up. -/
structure RunExecutionControl.Continues (before after : RunExecutionControl) : Prop where
  policyHash : after.policyHash = before.policyHash
  version : before.version ≤ after.version
  window : before.window ≠ none → after.window = before.window
  cancelRequest : before.cancelRequest ≠ none → after.cancelRequest = before.cancelRequest

theorem RunExecutionControl.Continues.refl (control : RunExecutionControl) :
    control.Continues control :=
  ⟨rfl, Nat.le_refl _, fun _ => rfl, fun _ => rfl⟩

namespace Database

theorem startExecution_continues {expectedControlVersion : Nat} {startedAt : Time}
    (started : db.startExecution expectedControlVersion startedAt = .ok after) :
    ∃ before control, db.control = some before ∧ before.Continues control ∧ control.window ≠ none ∧
      after = { db with control := some control } := by
  obtain ⟨before, stored, ⟨window, opened, _, rfl⟩ | ⟨unopened, _, _, _, _, rfl⟩⟩ :=
    startExecution_effect started
  · exact ⟨before, before, stored, .refl before, by simp [opened], by rw [← stored]⟩
  · let control := { before with
      window := some { startedAt, deadlineAt := startedAt + seconds before.runTimeoutSeconds }
      updatedAt := startedAt
      version := before.version + 1 }
    exact ⟨before, control, stored,
      ⟨rfl, Nat.le_succ _, fun opened => absurd unopened opened, fun _ => rfl⟩,
        by simp [control], rfl⟩

theorem requestCancel_continues {expectedControlVersion : Nat} {requestedAt : Time}
    (requested : db.requestCancel expectedControlVersion actorDigest requestedAt = .ok after) :
    ∃ before control, db.control = some before ∧ before.Continues control ∧
      control.cancelRequest ≠ none ∧ after = { db with control := some control } := by
  obtain ⟨before, stored, ⟨request, cancelled, _, rfl⟩ | ⟨uncancelled, _, _, rfl⟩⟩ :=
    requestCancel_effect requested
  · exact ⟨before, before, stored, .refl before, by simp [cancelled], by rw [← stored]⟩
  · let control := { before with
      cancelRequest := some { requestedAt, actorDigest }
      updatedAt := requestedAt
      version := before.version + 1 }
    exact ⟨before, control, stored,
      ⟨rfl, Nat.le_succ _, fun _ => rfl, fun cancelled => absurd uncancelled cancelled⟩,
      by simp [control], rfl⟩

end Database

/-- One command of the run service was persisted. -/
structure RunMoved (db : Database) (command : RunLifecycleCommand) (after : Database) : Prop where
  run : db.run.Advanced command after.run
  ordinary : command ∉ [.recordPlan, .releaseApprovedPlan, .rejectApproval]
  uncontrolled : command ∈ [.activatePlan, .cancel] →
    db.run.approvalRequired ≠ some true ∧ (db.run.approvalRequired = some false → db.control = none)
  frame : after = { db with
    run := after.run
    runTransitions := after.runTransitions
    audits := after.audits }

theorem RunLifecycleService.attemptAdvance_effect {expectedVersion : Nat}
    (accepted : attemptAdvance db expectedVersion command context occurredAt = .ok after) :
    RunMoved db command after := by
  simp only [attemptAdvance, bind_ok, require_ok, pure_ok, Prod.exists] at accepted
  obtain ⟨_, boundary, _, controlled, _, unplanned, _, _, _, _, result, _, advanced, rfl⟩ :=
    accepted
  obtain ⟨moved, rfl⟩ := Database.advanceRun_effect advanced
  simp only [approvalBoundaryCommand, Bool.or_eq_false_iff, decide_eq_false_iff_not,
    Bool.and_eq_false_imp, decide_eq_true_eq] at boundary
  simp only [controlledCommand, Bool.and_eq_false_imp, Bool.and_eq_true, decide_eq_true_eq,
    decide_eq_false_iff_not, not_not, and_imp] at controlled
  refine ⟨moved, ?_, ?_, rfl⟩
  · have first := boundary.1
    simp only [List.mem_cons, List.not_mem_nil, or_false, not_or] at first ⊢
    exact ⟨unplanned, first.1, first.2⟩
  · intro composed
    exact ⟨fun required => boundary.2 required composed, fun direct => controlled direct composed⟩

/-- One command of the step service was persisted. -/
structure StepMoved (db : Database) (stepId : String) (command : StepLifecycleCommand)
    (before step : RunStep) (after : Database) : Prop where
  found : db.step? stepId = some before
  advanced : before.Advanced command step
  uncontrolled : command ∈ [.start, .succeed, .fail, .cancel] →
    db.operation? stepId before.runtimePolicy.operationKey = none
  unbounded : before.effect = .write → command ∉ [.waitForApproval, .releaseApproval, .start,
    .startReservedWrite, .reject, .cancel, .skip]
  parent : db.run.state ∈ RunStepLifecycleService.allowedParentStates command
  ready : command = .markReady → RunStepLifecycleService.dependenciesSucceeded db before
  steps : after.steps = db.steps.set stepId step
  frame : after = { db with
    steps := after.steps
    stepTransitions := after.stepTransitions
    audits := after.audits }

theorem RunStepLifecycleService.advance_effect {expectedVersion : Nat}
    (accepted : advance db stepId expectedVersion command context occurredAt = .ok after) :
    ∃ before step, StepMoved db stepId command before step after := by
  simp only [advance, bind_ok, require_ok, requireSome_ok, pure_ok, Prod.exists] at accepted
  obtain ⟨before, found, _, _, _, controlled, _, boundary, _, parent, _, ready, result, _,
    advanced, rfl⟩ :=
    accepted
  obtain ⟨moved, _, _, _, rfl⟩ := Database.advanceStep_effect advanced found
  simp only [controlledReadCommand, Bool.and_eq_false_imp, decide_eq_true_eq] at controlled
  simp only [approvalBoundaryCommand, Bool.and_eq_false_imp, decide_eq_true_eq,
    decide_eq_false_iff_not] at boundary
  exact ⟨before, result.step, {
    found
    advanced := moved
    uncontrolled := fun calls => by simpa using controlled calls
    unbounded := boundary
    parent
    ready
    steps := rfl
    frame := rfl }⟩

/-- A step that calls nothing was started and finished in one transaction. -/
structure StepExecuted (db : Database) (stepId : String) (before started step : RunStep)
    (after : Database) : Prop where
  executing : db.run.state = .executing
  found : db.step? stepId = some before
  uncalled : before.effect = .read ∧ before.runtimePolicy.attemptKind = .noCall
  independent : before.dependencyKeys = []
  start : before.Advanced .start started
  finish : started.Advanced .succeed step
  steps : after.steps = db.steps.set stepId step
  frame : after = { db with
    steps := after.steps
    stepTransitions := after.stepTransitions
    audits := after.audits }

theorem LocalExecutor.execute_effect {executor : LocalExecutor} {now completedAt : Time}
    (accepted : executor.execute db stepId now completedAt = .ok after) :
    after = db ∨ ∃ before started step, StepExecuted db stepId before started step after := by
  simp only [execute, refuse, bind_ok, require_ok, requireSome_ok] at accepted
  obtain ⟨before, found, control, _, _, contract, accepted⟩ := accepted
  split at accepted
  · exact .inl (pure_ok.mp accepted).symm
  · simp only [bind_ok, require_ok, pure_ok, Prod.exists] at accepted
    obtain ⟨_, _, _, executing, _, _, startResult, _, started, finishResult, _, finished, rfl⟩ :=
      accepted
    obtain ⟨start, _, _, _, rfl⟩ := Database.advanceStep_effect started found
    have startedFound : (Database.step? { db with
        steps := db.steps.set stepId startResult.step
        stepTransitions := db.stepTransitions ++ [startResult.transition] } stepId) =
          some startResult.step := Table.get?_set_self found
    obtain ⟨finish, _, _, _, rfl⟩ := Database.advanceStep_effect finished startedFound
    simp only [contractHolds, Bool.and_eq_true, decide_eq_true_eq] at contract
    exact .inr ⟨before, startResult.step, finishResult.step, {
      executing := executing.1
      found
      uncalled := ⟨contract.1.1.1.1.1.1.1.2, contract.1.1.1.1.1.1.2⟩
      independent := contract.1.1.1.1.2
      start
      finish
      steps := Table.set_set
      frame := rfl }⟩

/-- The approval rows that a plan installs, or those that were there before it. -/
def SealedPlan.ApprovalsInstalled (plan : SealedPlan) (db after : Database) : Prop :=
  match plan.epoch with
  | none => after.actions = db.actions ∧ after.authorizationHead = db.authorizationHead ∧
      after.authorizationSets = db.authorizationSets
  | some epoch => after.actions = epoch.actions ∧ after.authorizationHead = some epoch.head ∧
      after.authorizationSets = db.authorizationSets.put epoch.setId epoch.set

/-- A plan was persisted and, when it writes, moved to its approval boundary. -/
structure PlanPersisted (db : Database) (plan : SealedPlan) (after : Database) : Prop where
  validated : db.run.state = .validated
  run : after.run.state = if plan.containsWriteActions then .awaitingApproval else .planned
  approvalRequired : after.run.approvalRequired = some plan.containsWriteActions
  steps : StepsAdvanced .waitForApproval
    (plan.steps.entries.filter (·.2.effect = .write)) plan.steps after.steps
  operations : after.operations = plan.operations
  control : after.control = some plan.control
  approvals : plan.ApprovalsInstalled db after
  receipts : after.receipts = db.receipts

theorem StepsAdvanced.none (steps : Table String RunStep) :
    StepsAdvanced command [] steps steps :=
  ⟨rfl, by simp, fun _ _ => rfl⟩

theorem SealedPlan.install_effect (plan : SealedPlan) (db : Database) :
    (plan.install db).run = db.run ∧ (plan.install db).steps = plan.steps ∧
      (plan.install db).operations = plan.operations ∧
      (plan.install db).control = some plan.control ∧ (plan.install db).receipts = db.receipts ∧
      plan.ApprovalsInstalled db (plan.install db) := by
  unfold install ApprovalsInstalled
  cases plan.epoch <;> simp

theorem PlanPersistenceService.persist_effect {expectedVersion : Nat} {activatedAt : Time}
    (accepted : persist db plan expectedVersion occurredAt activatedAt = .ok after) :
    PlanPersisted db plan after := by
  simp only [persist, bind_ok, require_ok, Prod.exists] at accepted
  obtain ⟨_, validated, _, _, planned, plannedDb, recorded, rest⟩ := accepted
  obtain ⟨recordedRun, rfl⟩ := Database.advanceRun_effect recorded
  obtain ⟨run, steps, operations, control, receipts, approvals⟩ := plan.install_effect { db with
    run := planned.run
    runTransitions := db.runTransitions ++ [planned.transition] }
  generalize plan.install _ = installed at run steps operations control receipts approvals rest
  have approvalRequired : planned.run.approvalRequired = some plan.containsWriteActions := by
    simp only [Database.advanceRun, transitionRun, nextRunState, bind_ok, require_ok,
      requireSome_ok, pure_ok, Prod.exists, Prod.mk.injEq] at recorded
    obtain ⟨_, ⟨_, _, _, _, _, _, _, next, rfl⟩, _, _, rfl, _⟩ := recorded
    simp only [validated, if_true, Except.ok.injEq, Prod.mk.injEq] at next
    exact next.2.2.symm
  split at rest
  · rename_i writes
    simp only [bind_ok, pure_ok, Prod.exists] at rest
    obtain ⟨waiting, _, advanced, activated, _, activates, rfl⟩ := rest
    obtain ⟨waitingSteps, _, rfl, moved⟩ :=
      advanceSteps_effect advanced Database.stepsWhere_distinct
      (fun entry member => (Database.mem_stepsWhere.mp member).1)
    obtain ⟨activatedRun, rfl⟩ := Database.advanceRun_effect activates
    have activation := activatedRun.moved
    simp only [Database.appendAudits, run, approvalRequired, writes, RunLifecycleCommand.Moves,
      if_true] at activation
    exact {
      validated
      run := by rw [if_pos writes]; exact activation.2.2
      approvalRequired := by rw [writes]; exact activation.2.1
      steps := by
        have selected := moved
        simp only [Database.appendAudits, Database.stepsWhere, steps] at selected
        exact selected
      operations
      control
      approvals
      receipts }
  · rename_i readsOnly
    obtain rfl := pure_ok.mp rest
    have noWrites : plan.steps.entries.filter (·.2.effect = .write) = [] := by
      rw [List.filter_eq_nil_iff]
      intro entry member
      simp [plan.readOnly (by simpa [SealedPlan.containsWriteActions] using readsOnly) entry member]
    exact {
      validated
      run := by
        rw [if_neg readsOnly]
        exact (congrArg Run.state run).trans recordedRun.moved.2.1
      approvalRequired := (congrArg Run.approvalRequired run).trans approvalRequired
      steps := by
        rw [noWrites]
        exact steps ▸ .none _
      operations
      control
      approvals
      receipts }

/-- The deadline of a read-only plan was started and its roots were readied. -/
structure PlanActivated (db after : Database) : Prop where
  planned : db.run.state = .planned
  run : db.run.Advanced .activatePlan after.run
  readOnly : db.run.approvalRequired = some false
  steps : StepsAdvanced .markReady (db.stepsWhere fun _ step => step.dependencyKeys = []) db.steps
    after.steps
  control : ∃ before control, db.control = some before ∧ before.Continues control ∧
    control.window ≠ none ∧ after.control = some control
  frame : after = { db with
    run := after.run
    runTransitions := after.runTransitions
    steps := after.steps
    stepTransitions := after.stepTransitions
    control := after.control
    audits := after.audits }

theorem ExecutionActivationService.activate_effect {activatedAt : Time}
    (accepted : activate db activatedAt = .ok after) : after = db ∨ PlanActivated db after := by
  simp only [activate, bind_ok, require_ok, requireSome_ok] at accepted
  obtain ⟨_, _, _, _, _, ⟨readOnly, _⟩, accepted⟩ := accepted
  split at accepted
  · simp only [bind_ok, pure_ok] at accepted
    obtain ⟨_, _, rfl⟩ := accepted
    exact .inl rfl
  · simp only [bind_ok, require_ok, pure_ok, Prod.exists] at accepted
    obtain ⟨_, ⟨planned, _⟩, _, _, runResult, _, runAdvanced, _, _, _, _, ready, started,
      starts, rfl⟩ :=
      accepted
    obtain ⟨run, rfl⟩ := Database.advanceRun_effect runAdvanced
    obtain ⟨steps, _, rfl, moved⟩ := advanceSteps_effect ready Database.stepsWhere_distinct
      (fun entry member => (Database.mem_stepsWhere.mp member).1)
    obtain ⟨before, control, stored, continues, opened, rfl⟩ :=
      Database.startExecution_continues starts
    exact .inr {
      planned
      run
      readOnly
      steps := moved
      control := ⟨before, control, stored, continues, opened, rfl⟩
      frame := rfl }

end MarketingAgents
