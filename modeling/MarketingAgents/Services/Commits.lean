import MarketingAgents.Services.CancellationEffects
import MarketingAgents.Services.ReadEffects
import MarketingAgents.Services.RunWorker
import MarketingAgents.Services.WriteEffects

namespace MarketingAgents

open Library

/-! # Committed transactions

Every transaction of a service on one run, and the one kind of change that it
commits.  What follows looks at the kinds of change only.
-/

/-- One transaction of some worker, operator or connector on the rows of a run. -/
inductive ServiceTransaction where
  | advanceRun (expectedVersion : Nat) (command : RunLifecycleCommand)
      (context : RunTransitionContext) (occurredAt : Time)
  | persistPlan (plan : SealedPlan) (expectedVersion : Nat) (occurredAt activatedAt : Time)
  | activate (activatedAt : Time)
  | advanceStep (stepId : String) (expectedVersion : Nat) (command : StepLifecycleCommand)
      (context : StepTransitionContext) (occurredAt : Time)
  | executeLocal (executor : LocalExecutor) (stepId : String) (now completedAt : Time)
  | evaluateApproval (releaseHash : String) (newIds : String → ReleaseIds) (now : Time)
  | decideApproval (requestId decisionId : String) (approve : Bool) (releaseHash : String)
      (newIds : String → ReleaseIds) (decidedAt : Time)
  | renewApproval (requestId replacementId : String) (expectedVersion : Nat)
      (requestedAt expiresAt : Time)
  | cancelReadPlan (actorDigest : String) (occurredAt : Time)
  | cancelWritePlan (actorDigest : String) (closedAt : Time)
  | reserveRead (adapter : ReadAdapter) (command : ControlledReadCommand) (attemptId : String)
      (reservedAt : Time)
  | completeRead (context : AuditContext) (attemptId stepId : String) (outcome : ReadOutcome)
      (completedAt : Time)
  | denyRead (context : AuditContext) (stepId : String) (error : Rejection) (occurredAt : Time)
  | recoverCancelledRead (stepId : String) (now : Time)
  | startWrite (dispatcher : Dispatcher) (actionId leaseOwner : String) (claimedAt : Time)
  | denyWrite (actionId leaseOwner : String) (error : Rejection) (occurredAt : Time)
  | commitReceipt (bindingId idempotencyKey : String) (receipt : ConnectorActionReceipt)
  | completeWrite (dispatcher : Dispatcher) (actionId : String) (marked : ExternalAction)
      (leaseOwner receiptId status : String) (now : Time)
  | reconcileWrite (dispatcher : Dispatcher) (actionId : String) (marked : ExternalAction)
      (leaseOwner : String) (now : Time)
  | failWrite (actionId : String) (marked : ExternalAction) (leaseOwner reasonCode : String)
      (outcomeUnknown : Bool) (now : Time)
  | recoverWrite (actionId : String) (snapshot : ExternalAction) (now : Time)
  | closeWrite (dispatcher : Dispatcher) (actionId : String) (snapshot : ExternalAction)
      (cancelledOnly : Bool) (now : Time)
  | failRun (now : Time)

namespace ServiceTransaction

/-- The transaction is accepted in one state and leaves another. -/
def Applies (db : Database) (transaction : ServiceTransaction) (after : Database) : Prop :=
  match transaction with
  | advanceRun expectedVersion command context occurredAt =>
      RunLifecycleService.attemptAdvance db expectedVersion command context occurredAt = .ok after
  | persistPlan plan expectedVersion occurredAt activatedAt =>
      PlanPersistenceService.persist db plan expectedVersion occurredAt activatedAt = .ok after
  | activate activatedAt => ExecutionActivationService.activate db activatedAt = .ok after
  | advanceStep stepId expectedVersion command context occurredAt =>
      RunStepLifecycleService.advance db stepId expectedVersion command context occurredAt =
        .ok after
  | executeLocal executor stepId now completedAt =>
      executor.execute db stepId now completedAt = .ok after
  | evaluateApproval releaseHash newIds now =>
      ∃ disposition, ApprovalBoundaryService.evaluate db releaseHash newIds now =
        .ok (disposition, after)
  | decideApproval requestId decisionId approve releaseHash newIds decidedAt =>
      ApprovalDecisionService.decide db requestId decisionId approve releaseHash newIds decidedAt =
        .ok after
  | renewApproval requestId replacementId expectedVersion requestedAt expiresAt =>
      ApprovalRecordService.renewExpired db requestId replacementId expectedVersion
        requestedAt expiresAt = .ok after
  | cancelReadPlan actorDigest occurredAt =>
      RunCancellationService.requestOnce db actorDigest occurredAt = .ok after
  | cancelWritePlan actorDigest closedAt =>
      ApprovalBoundaryService.cancelOnce db actorDigest closedAt = .ok after
  | reserveRead adapter command attemptId reservedAt =>
      ∃ reservation, ControlledReadExecutor.reserve adapter db command attemptId reservedAt =
        .ok (reservation, after)
  | completeRead context attemptId stepId outcome completedAt =>
      ∃ completion, ControlledReadExecutor.completeOnce db context attemptId stepId
        outcome completedAt = .ok (completion, after)
  | denyRead context stepId error occurredAt =>
      ControlledReadExecutor.recordRuntimeControlDenial db context stepId error occurredAt =
        .ok after
  | recoverCancelledRead stepId now =>
      ∃ completion, ControlledReadExecutor.recoverCancelledAttempt db stepId now =
        .ok (completion, after)
  | startWrite dispatcher actionId leaseOwner claimedAt =>
      ∃ start, ExternalActionDispatcher.claimAndMarkCallStarted dispatcher db actionId leaseOwner
        claimedAt = .ok (start, after)
  | denyWrite actionId leaseOwner error occurredAt =>
      ExternalActionDispatcher.recordRuntimeControlDenial db actionId leaseOwner error occurredAt =
        .ok after
  | commitReceipt bindingId idempotencyKey receipt =>
      ∃ receipts, db.receipts.insert? (bindingId, idempotencyKey) receipt = some receipts ∧
        after = { db with receipts }
  | completeWrite dispatcher actionId marked leaseOwner receiptId status now =>
      ExternalActionDispatcher.completeDelivery dispatcher db actionId marked leaseOwner
        receiptId status now = .ok after
  | reconcileWrite dispatcher actionId marked leaseOwner now =>
      ExternalActionDispatcher.reconcileDurableReceipt dispatcher db actionId marked
        leaseOwner now = .ok (some after)
  | failWrite actionId marked leaseOwner reasonCode outcomeUnknown now =>
      ExternalActionDispatcher.completeFailure db actionId marked leaseOwner reasonCode
        outcomeUnknown now = .ok (some after)
  | recoverWrite actionId snapshot now =>
      ExternalActionDispatcher.recoverStale db actionId snapshot now = .ok after
  | closeWrite dispatcher actionId snapshot cancelledOnly now =>
      ExternalActionDispatcher.finalizeTerminalParentCall dispatcher db actionId
        snapshot cancelledOnly now = .ok (some after)
  | failRun now => RunWorker.fail db now = .ok after

end ServiceTransaction

/-- A provider call was started, with the claim, the permit and the step it is for. -/
structure DeliveryStarted (db : Database) (actionId : String) (after : Database) : Prop where
  executing : db.run.state = .executing
  control : ∃ before control, db.control = some before ∧ before.window ≠ none ∧
    before.Continues control ∧ after.control = some control
  call : ∃ authority stored updated, CallStarted db actionId authority stored updated ∧
    authority.stepId = stored.action.contract.stepId ∧
    CallStep authority.stepId db.steps after.steps ∧ after.actions = db.actions.set actionId updated
  frame : after = { db with
    rateWindows := after.rateWindows
    control := after.control
    steps := after.steps
    stepTransitions := after.stepTransitions
    actions := after.actions
    audits := after.audits }

/-- The kinds of change that a transaction can commit. -/
inductive Commit where
  | recorded
  | runMoved (command : RunLifecycleCommand)
  | planPersisted
  | planActivated
  | stepMoved (stepId : String) (command : StepLifecycleCommand)
  | stepExecuted (stepId : String)
  | approvalsChanged
  | setReleased
  | setClosed
  | runCancelled
  | attemptReserved (stepId : String)
  | attemptClosed (stepId : String)
  | callStarted (actionId : String)
  | actionReleased (actionId : String)
  | actionConcluded (actionId : String) (outcome : WriteOutcome)
  | cleanedUp (stepId : String)
deriving DecidableEq

/-- What each kind of change leaves behind. -/
inductive Committed (db : Database) : Commit → Database → Prop where
  | recorded (receipts : Table (String × String) ConnectorActionReceipt)
      (audits : List AuditEvent) : Committed db .recorded { db with receipts, audits }
  | runMoved {command : RunLifecycleCommand} {after : Database}
      (moved : RunMoved db command after) : Committed db (.runMoved command) after
  | planPersisted {plan : SealedPlan} {after : Database} (persisted : PlanPersisted db plan after) :
      Committed db .planPersisted after
  | planActivated {after : Database} (activated : PlanActivated db after) :
      Committed db .planActivated after
  | stepMoved {stepId : String} {command : StepLifecycleCommand} {before step : RunStep}
      {after : Database} (moved : StepMoved db stepId command before step after) :
      Committed db (.stepMoved stepId command) after
  | stepExecuted {stepId : String} {before started step : RunStep} {after : Database}
      (executed : StepExecuted db stepId before started step after) :
      Committed db (.stepExecuted stepId) after
  | approvalsChanged {after : Database} (changed : ApprovalsChanged db after) :
      Committed db .approvalsChanged after
  | setReleased {middle after : Database} (decided : ApprovalsChanged db middle)
      (released : ApprovalBoundaryService.SetReleased middle after) :
        Committed db .setReleased after
  | setClosed {middle after : Database} (decided : ApprovalsChanged db middle)
      (closed : ApprovalBoundaryService.SetClosed middle after) : Committed db .setClosed after
  | runCancelled {after : Database} (cancelled : RunCancelled db after) :
      Committed db .runCancelled after
  | attemptReserved {stepId : String} {attempt : ExecutionAttempt} {after : Database}
      (reserved : ReadReserved db stepId attempt after) :
        Committed db (.attemptReserved stepId) after
  | attemptClosed {stepId : String} {after : Database} (closed : ReadClosed db stepId after) :
      Committed db (.attemptClosed stepId) after
  | callStarted {actionId : String} {after : Database}
      (started : DeliveryStarted db actionId after) : Committed db (.callStarted actionId) after
  | actionReleased {actionId : String} {stored updated : StoredAction}
      (released : ExternalActionDispatcher.ActionReleased db actionId stored updated) :
      Committed db (.actionReleased actionId) (db.storeAction actionId updated)
  | actionConcluded {actionId : String} {outcome : WriteOutcome} {after : Database}
      (concluded : WriteConcluded db actionId outcome after) :
      Committed db (.actionConcluded actionId outcome) after
  | cleanedUp {stepId planHash : String} {failedStep : RunStep} {cleaned : Database}
      {audits : List AuditEvent}
      (cleanup : TerminalExecutionCleanupService.CleanedUp db planHash stepId none
        failedStep cleaned) :
      Committed db (.cleanedUp stepId) { cleaned with audits }

namespace Committed

variable {db : Database}

theorem nothing : Committed db .recorded db := .recorded db.receipts db.audits

theorem audited (audits : List AuditEvent) : Committed db .recorded { db with audits } :=
  .recorded db.receipts audits

end Committed

namespace ServiceTransaction

variable {db after : Database}

/-- The kinds of change that a transaction may commit in a state. -/
def Commits (db : Database) (transaction : ServiceTransaction) (commit : Commit) : Prop :=
  match transaction with
  | advanceRun _ command _ _ => commit = .runMoved command
  | persistPlan .. => commit = .planPersisted
  | activate _ => commit ∈ [.recorded, .planActivated]
  | advanceStep stepId _ command _ _ => commit = .stepMoved stepId command
  | executeLocal _ stepId _ _ => commit ∈ [.recorded, .stepExecuted stepId]
  | evaluateApproval .. | decideApproval .. =>
      commit ∈ [.approvalsChanged, .setReleased, .setClosed]
  | renewApproval .. => commit = .approvalsChanged
  | cancelReadPlan .. => commit = .runCancelled
  | cancelWritePlan .. => commit ∈ [.setClosed, .runCancelled]
  | reserveRead _ command _ _ =>
      commit ∈ [.attemptReserved command.stepId, .attemptClosed command.stepId]
  | completeRead _ _ stepId _ _ => commit = .attemptClosed stepId
  | recoverCancelledRead stepId _ => commit ∈ [.recorded, .attemptClosed stepId]
  | denyRead _ stepId _ _ => commit ∈ [.recorded, .cleanedUp stepId]
  | startWrite _ actionId _ _ => commit ∈ [.recorded, .callStarted actionId]
  | denyWrite actionId _ _ _ => commit = .recorded ∨ ∃ stored, db.action? actionId = some stored ∧
      commit = .cleanedUp stored.action.contract.stepId
  | commitReceipt .. => commit = .recorded
  | completeWrite _ actionId _ _ _ _ _ | reconcileWrite _ actionId _ _ _ =>
      ∃ outcome, outcome.reasonCode = none ∧ commit = .actionConcluded actionId outcome
  | failWrite actionId _ _ reasonCode outcomeUnknown _ => commit = .actionConcluded actionId
      (if outcomeUnknown then .outcomeUnknown reasonCode else .failed reasonCode)
  | recoverWrite actionId _ _ => commit = .actionReleased actionId ∨
      ∃ outcome, outcome.reasonCode ≠ none ∧ commit = .actionConcluded actionId outcome
  | closeWrite _ actionId _ _ _ => ∃ outcome, commit = .actionConcluded actionId outcome
  | failRun _ => commit = .recorded ∨ (∃ stepId step, db.run.state = .executing ∧
        RunWorker.failedStep db = some (stepId, step) ∧ commit = .cleanedUp stepId) ∨
      (db.run.state = .executing → RunWorker.failedStep db = none) ∧ commit = .runMoved .fail

theorem failRun_commits {now : Time} (failed : RunWorker.fail db now = .ok after) :
    ∃ commit, (failRun now).Commits db commit ∧ Committed db commit after := by
  unfold RunWorker.fail at failed
  split at failed
  · obtain rfl := pure_ok.mp failed
    exact ⟨.recorded, .inl rfl, .nothing⟩
  · split at failed
    · rename_i stepId step selected
      rw [Option.filter_eq_some_iff, decide_eq_true_eq] at selected
      simp only [TerminalExecutionCleanupService.failOrdinary, bind_ok, pure_ok,
        Prod.exists] at failed
      obtain ⟨cleanup, cleaned, accepted, rfl⟩ := failed
      exact ⟨.cleanedUp stepId, .inr (.inl ⟨stepId, step, selected.2, selected.1, rfl⟩),
        .cleanedUp (TerminalExecutionCleanupService.failExecution_effect accepted)⟩
    · rename_i unselected
      simp only [bind_ok] at failed
      obtain ⟨_, _, accepted⟩ := failed
      refine ⟨.runMoved .fail, .inr (.inr ⟨?_, rfl⟩),
        .runMoved (RunLifecycleService.attemptAdvance_effect accepted)⟩
      intro executing
      cases selected : RunWorker.failedStep db with
      | none => rfl
      | some entry => simp [selected, executing] at unselected

/-- Every accepted transaction commits one of the changes it may commit. -/
theorem commits {transaction : ServiceTransaction} (known : ∀ stepId,
      ControlledReadExecutor.AttemptsKnown db stepId)
    (distinct : ∀ middle, ApprovalsChanged db middle →
      ApprovalBoundaryService.MembersDistinct middle)
    (applied : transaction.Applies db after) :
    ∃ commit, transaction.Commits db commit ∧ Committed db commit after := by
  have boundary : ∀ {middle}, ApprovalsChanged db middle →
      ApprovalBoundaryService.BoundaryCrossed middle after →
      ∃ commit, commit ∈ [Commit.approvalsChanged, .setReleased, .setClosed] ∧
        Committed db commit after := by
    rintro middle decided (changed | released | closed)
    · exact ⟨.approvalsChanged, by simp, .approvalsChanged (decided.trans changed)⟩
    · exact ⟨.setReleased, by simp, .setReleased decided released⟩
    · exact ⟨.setClosed, by simp, .setClosed decided closed⟩
  cases transaction with
  | advanceRun => exact ⟨_, rfl, .runMoved (RunLifecycleService.attemptAdvance_effect applied)⟩
  | persistPlan => exact ⟨_, rfl, .planPersisted (PlanPersistenceService.persist_effect applied)⟩
  | activate =>
      rcases ExecutionActivationService.activate_effect applied with rfl | activated
      · exact ⟨.recorded, by simp [Commits], .nothing⟩
      · exact ⟨.planActivated, by simp [Commits], .planActivated activated⟩
  | advanceStep =>
      obtain ⟨_, _, moved⟩ := RunStepLifecycleService.advance_effect applied
      exact ⟨_, rfl, .stepMoved moved⟩
  | executeLocal =>
      rcases LocalExecutor.execute_effect applied with rfl | ⟨_, _, _, executed⟩
      · exact ⟨.recorded, by simp [Commits], .nothing⟩
      · exact ⟨.stepExecuted _, by simp [Commits], .stepExecuted executed⟩
  | evaluateApproval =>
      obtain ⟨_, evaluated⟩ := applied
      exact boundary (.refl db)
        (ApprovalBoundaryService.evaluate_effect (distinct _ (.refl db)) evaluated)
  | decideApproval =>
      obtain ⟨middle, decided, rfl | ⟨_, evaluated⟩⟩ :=
        ApprovalDecisionService.decide_effect applied
      · exact ⟨.approvalsChanged, by simp [Commits], .approvalsChanged decided⟩
      · exact boundary decided
          (ApprovalBoundaryService.evaluate_effect (distinct _ decided) evaluated)
  | renewApproval =>
      exact ⟨_, rfl, .approvalsChanged (ApprovalRecordService.renewExpired_effect applied)⟩
  | cancelReadPlan =>
      exact ⟨_, rfl, .runCancelled (RunCancellationService.requestOnce_effect applied)⟩
  | cancelWritePlan =>
      rcases ApprovalBoundaryService.cancelOnce_effect applied with closed | cancelled
      · exact ⟨.setClosed, by simp [Commits], .setClosed (.refl db) closed⟩
      · exact ⟨.runCancelled, by simp [Commits], .runCancelled cancelled⟩
  | reserveRead =>
      obtain ⟨_, accepted⟩ := applied
      rcases ControlledReadExecutor.reserve_effect (known _) accepted with
        ⟨_, _, closed⟩ | ⟨_, _, reserved⟩
      · exact ⟨.attemptClosed _, by simp [Commits], .attemptClosed closed⟩
      · exact ⟨.attemptReserved _, by simp [Commits], .attemptReserved reserved⟩
  | completeRead =>
      obtain ⟨_, accepted⟩ := applied
      exact ⟨_, rfl, .attemptClosed (ControlledReadExecutor.completeOnce_effect accepted)⟩
  | denyRead =>
      rcases ControlledReadExecutor.recordRuntimeControlDenial_effect applied with
        ⟨audits, rfl⟩ | ⟨_, _, _, _, cleanup, rfl⟩
      · exact ⟨.recorded, by simp [Commits], .audited audits⟩
      · exact ⟨.cleanedUp _, by simp [Commits], .cleanedUp cleanup⟩
  | recoverCancelledRead =>
      obtain ⟨_, accepted⟩ := applied
      rcases ControlledReadExecutor.recoverCancelledAttempt_effect (known _) accepted with
        ⟨_, rfl⟩ | ⟨_, _, closed⟩
      · exact ⟨.recorded, by simp [Commits], .nothing⟩
      · exact ⟨.attemptClosed _, by simp [Commits], .attemptClosed closed⟩
  | startWrite =>
      obtain ⟨_, dispatched⟩ := applied
      rcases ExternalActionDispatcher.claimAndMarkCallStarted_effect dispatched with
        rfl | ⟨stored, authority, found, admitted, started⟩
      · exact ⟨.recorded, by simp [Commits], .nothing⟩
      · obtain ⟨control, window, charged, updated, steps, stepTransitions, rateWindows, audits,
          stored, opened, _, executing, call, callStep, charge, rfl⟩ :=
          ExternalActionDispatcher.startAdmitted_effect found started
        obtain ⟨charged, _, _⟩ := Database.chargeLogicalCall_effect charge
        refine ⟨.callStarted _, by simp [Commits], .callStarted {
          executing
          control := ⟨control, _, stored, by simp [opened], ?_, rfl⟩
          call := ⟨authority, _, updated, call,
            (ExternalActionDispatcher.admission_effect admitted).2.1, callStep, rfl⟩
          frame := rfl }⟩
        rw [charged]
        exact ⟨rfl, Nat.le_succ _, fun _ => rfl, fun _ => rfl⟩
  | denyWrite =>
      rcases ExternalActionDispatcher.recordRuntimeControlDenial_effect applied with
        ⟨audits, rfl⟩ | ⟨stored, _, _, _, _, found, cleanup, rfl⟩
      · exact ⟨.recorded, .inl rfl, .audited audits⟩
      · exact ⟨.cleanedUp _, .inr ⟨stored, found, rfl⟩, .cleanedUp cleanup⟩
  | commitReceipt =>
      obtain ⟨receipts, _, rfl⟩ := applied
      exact ⟨.recorded, rfl, .recorded receipts db.audits⟩
  | completeWrite =>
      obtain ⟨outcome, succeeds, concluded⟩ :=
        ExternalActionDispatcher.completeDelivery_effect applied
      exact ⟨_, ⟨outcome, succeeds, rfl⟩, .actionConcluded concluded⟩
  | reconcileWrite =>
      rcases ExternalActionDispatcher.reconcileDurableReceipt_effect applied with
        impossible | ⟨_, outcome, same, succeeds, concluded⟩
      · cases impossible
      · cases same
        exact ⟨_, ⟨outcome, succeeds, rfl⟩, .actionConcluded concluded⟩
  | failWrite =>
      rcases ExternalActionDispatcher.completeFailure_effect applied with
        impossible | ⟨_, same, concluded⟩
      · cases impossible
      · cases same
        exact ⟨_, rfl, .actionConcluded concluded⟩
  | recoverWrite =>
      rcases ExternalActionDispatcher.recoverStale_effect applied with
        ⟨_, _, released, rfl⟩ | ⟨outcome, fails, concluded⟩
      · exact ⟨_, .inl rfl, .actionReleased released⟩
      · exact ⟨_, .inr ⟨outcome, fails, rfl⟩, .actionConcluded concluded⟩
  | closeWrite =>
      rcases ExternalActionDispatcher.finalizeTerminalParentCall_effect applied with
        impossible | ⟨_, outcome, same, concluded⟩
      · cases impossible
      · cases same
        exact ⟨_, ⟨outcome, rfl⟩, .actionConcluded concluded⟩
  | failRun => exact failRun_commits applied

end ServiceTransaction

end MarketingAgents
