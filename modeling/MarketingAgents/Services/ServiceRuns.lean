import MarketingAgents.Library.Machine
import MarketingAgents.Services.StepEvents

namespace MarketingAgents

open Library

/-! # Runs of the services

A run is received without a plan.  From then on any worker, operator or
connector commits one transaction after the other, each on the rows as they
stand.  Where a result rests on that and overlapping transactions could break
it, it is stated for units of work that are isolated.  Single repository
operations, whose updates are fenced by row versions, may act on older reads.
-/

/-- A run that was just received has none of the rows that a plan brings. -/
structure Received (db : Database) : Prop where
  state : db.run.state = .received
  undecided : db.run.approvalRequired = none
  steps : db.steps = .empty
  operations : db.operations = .empty
  control : db.control = none
  actions : db.actions = .empty
  head : db.authorizationHead = none

/-- Every interleaving of the services' transactions on one run. -/
def serviceMachine : Machine Database ServiceTransaction where
  initial := Received
  step db transaction after := transaction.Applies db after

namespace ServiceTransaction

variable {db after : Database} {transaction : ServiceTransaction}

/-- The services' transactions as one function. -/
def execute? (db : Database) : ServiceTransaction → Option Database
  | advanceRun expectedVersion command context occurredAt =>
      (RunLifecycleService.attemptAdvance db expectedVersion command context occurredAt).toOption
  | persistPlan plan expectedVersion occurredAt activatedAt =>
      (PlanPersistenceService.persist db plan expectedVersion occurredAt activatedAt).toOption
  | activate activatedAt => (ExecutionActivationService.activate db activatedAt).toOption
  | advanceStep stepId expectedVersion command context occurredAt =>
      (RunStepLifecycleService.advance db stepId expectedVersion command context
        occurredAt).toOption
  | executeLocal executor stepId now completedAt =>
      (executor.execute db stepId now completedAt).toOption
  | evaluateApproval releaseHash newIds now =>
      (ApprovalBoundaryService.evaluate db releaseHash newIds now).toOption.map (·.2)
  | decideApproval requestId decisionId approve releaseHash newIds decidedAt =>
      (ApprovalDecisionService.decide db requestId decisionId approve releaseHash newIds
        decidedAt).toOption
  | renewApproval requestId replacementId expectedVersion requestedAt expiresAt =>
      (ApprovalRecordService.renewExpired db requestId replacementId expectedVersion requestedAt
        expiresAt).toOption
  | cancelReadPlan actorDigest occurredAt =>
      (RunCancellationService.requestOnce db actorDigest occurredAt).toOption
  | cancelWritePlan actorDigest closedAt =>
      (ApprovalBoundaryService.cancelOnce db actorDigest closedAt).toOption
  | reserveRead adapter command attemptId reservedAt =>
      (ControlledReadExecutor.reserve adapter db command attemptId reservedAt).toOption.map (·.2)
  | completeRead context attemptId stepId outcome completedAt =>
      (ControlledReadExecutor.completeOnce db context attemptId stepId outcome
        completedAt).toOption.map (·.2)
  | denyRead context stepId error occurredAt =>
      (ControlledReadExecutor.recordRuntimeControlDenial db context stepId error
        occurredAt).toOption
  | recoverCancelledRead stepId now =>
      (ControlledReadExecutor.recoverCancelledAttempt db stepId now).toOption.map (·.2)
  | startWrite dispatcher actionId leaseOwner claimedAt =>
      (ExternalActionDispatcher.claimAndMarkCallStarted dispatcher db actionId leaseOwner
        claimedAt).toOption.map (·.2)
  | denyWrite actionId leaseOwner error occurredAt =>
      (ExternalActionDispatcher.recordRuntimeControlDenial db actionId leaseOwner error
        occurredAt).toOption
  | commitReceipt bindingId idempotencyKey receipt =>
      (db.receipts.insert? (bindingId, idempotencyKey) receipt).map fun receipts =>
        { db with receipts }
  | completeWrite dispatcher actionId marked leaseOwner receiptId status now =>
      (ExternalActionDispatcher.completeDelivery dispatcher db actionId marked leaseOwner
        receiptId status now).toOption
  | reconcileWrite dispatcher actionId marked leaseOwner now =>
      (ExternalActionDispatcher.reconcileDurableReceipt dispatcher db actionId marked leaseOwner
        now).toOption.join
  | failWrite actionId marked leaseOwner reasonCode outcomeUnknown now =>
      (ExternalActionDispatcher.completeFailure db actionId marked leaseOwner reasonCode
        outcomeUnknown now).toOption.join
  | recoverWrite actionId snapshot now =>
      (ExternalActionDispatcher.recoverStale db actionId snapshot now).toOption
  | closeWrite dispatcher actionId snapshot cancelledOnly now =>
      (ExternalActionDispatcher.finalizeTerminalParentCall dispatcher db actionId
        snapshot cancelledOnly now).toOption.join
  | failRun now => (RunWorker.fail db now).toOption

private theorem ok_of_map {α : Type} {outcome : Except Rejection (α × Database)}
    (same : outcome.toOption.map (·.2) = some after) : ∃ value, outcome = .ok (value, after) := by
  obtain ⟨⟨value, _⟩, accepted, rfl⟩ := Option.map_eq_some_iff.mp same
  exact ⟨value, ok_of_toOption accepted⟩

private theorem ok_of_join {outcome : Except Rejection (Option Database)}
    (same : outcome.toOption.join = some after) : outcome = .ok (some after) :=
  ok_of_toOption (Option.join_eq_some_iff.mp same)

theorem applies_of_execute? (executed : transaction.execute? db = some after) :
    transaction.Applies db after := by
  cases transaction with
  | advanceRun | persistPlan | activate | advanceStep | executeLocal |
      decideApproval | renewApproval
  | cancelReadPlan | cancelWritePlan | denyRead | denyWrite | completeWrite
  | recoverWrite | failRun =>
      exact ok_of_toOption executed
  | evaluateApproval | reserveRead | completeRead | recoverCancelledRead | startWrite =>
      exact ok_of_map executed
  | reconcileWrite | failWrite | closeWrite => exact ok_of_join executed
  | commitReceipt =>
      obtain ⟨receipts, inserted, rfl⟩ := Option.map_eq_some_iff.mp executed
      exact ⟨receipts, inserted, rfl⟩

/-- Run transactions that may read the rows they apply to, each of them checked. -/
def run? (check : Database → ServiceTransaction → Bool) :
    List (Database → ServiceTransaction) → Database → Option Database
  | [], db => some db
  | make :: rest, db => do
      guard (check db (make db))
      let after ← (make db).execute? db
      run? check rest after

theorem run?_reachable {check : Database → ServiceTransaction → Bool}
    {transactions : List (Database → ServiceTransaction)}
    (reached : serviceMachine.ReachableWhere (fun db transaction => check db transaction) db)
    (ran : run? check transactions db = some after) :
    serviceMachine.ReachableWhere (fun db transaction => check db transaction) after := by
  induction transactions generalizing db with
  | nil =>
      cases ran
      exact reached
  | cons make rest ih =>
      simp only [run?, bind, Option.bind_eq_some_iff, Option.guard_eq_some', exists_const] at ran
      obtain ⟨permitted, middle, executed, remaining⟩ := ran
      exact ih (reached.next (make db) permitted (applies_of_execute? executed)) remaining

end ServiceTransaction

section Commits

variable {db after : Database} {commit : Commit}

theorem Committed.head (committed : Committed db commit after)
    (established : commit ≠ .planPersisted) :
    after.authorizationHead = db.authorizationHead := by
  cases committed with
  | recorded | actionReleased => rfl
  | planPersisted => exact absurd rfl established
  | runMoved moved => rw [moved.frame]
  | planActivated activated => rw [activated.frame]
  | stepMoved moved => rw [moved.frame]
  | stepExecuted executed => rw [executed.frame]
  | approvalsChanged changed => rw [changed.frame]
  | setReleased decided released => rw [released.frame, decided.frame]
  | setClosed decided closed => rw [closed.frame, decided.frame]
  | runCancelled cancelled => rw [cancelled.frame]
  | attemptReserved reserved => rw [reserved.frame]
  | attemptClosed closed =>
      obtain ⟨_, _, closed, conclusion⟩ := closed
      cases conclusion with
      | retry | step => rw [closed.frame]
      | run _ cleanup => rw [cleanup.frame, closed.frame]
  | callStarted started => rw [started.frame]
  | actionConcluded concluded =>
      cases concluded with
      | step => rfl
      | run _ _ _ cleanup => rw [cleanup.frame]
  | cleanedUp cleanup => rw [cleanup.frame]

/-- The control of a plan stays and its version only grows. -/
theorem Committed.control (committed : Committed db commit after)
    (established : commit ≠ .planPersisted)
    {control : RunExecutionControl} (stored : db.control = some control) :
    ∃ later, after.control = some later ∧ control.version ≤ later.version := by
  have continued : (∃ before later, db.control = some before ∧ before.Continues later ∧
      after.control = some later) → ∃ later, after.control = some later ∧
        control.version ≤ later.version := by
    rintro ⟨before, later, same, continues, now⟩
    obtain rfl := Option.mem_unique stored same
    exact ⟨later, now, continues.version⟩
  have kept : after.control = db.control → ∃ later, after.control = some later ∧
      control.version ≤ later.version := fun same =>
    ⟨control, same.trans stored, Nat.le_refl _⟩
  cases committed with
  | recorded | actionReleased => exact kept rfl
  | planPersisted => exact absurd rfl established
  | runMoved moved => exact kept (by rw [moved.frame])
  | planActivated activated =>
      obtain ⟨before, later, same, continues, _, now⟩ := activated.control
      exact continued ⟨before, later, same, continues, now⟩
  | stepMoved moved => exact kept (by rw [moved.frame])
  | stepExecuted executed => exact kept (by rw [executed.frame])
  | approvalsChanged changed => exact kept (by rw [changed.frame])
  | setReleased decided released =>
      obtain ⟨before, later, same, continues, _, now⟩ := released.control
      exact continued ⟨before, later, by rw [← same, decided.frame], continues, now⟩
  | setClosed decided closed =>
      rcases closed.control with same | ⟨before, later, same, continues, now⟩
      · exact kept (by rw [same, decided.frame])
      · exact continued ⟨before, later, by rw [← same, decided.frame], continues, now⟩
  | runCancelled cancelled =>
      obtain ⟨before, later, same, continues, _, now⟩ := cancelled.control
      exact continued ⟨before, later, same, continues, now⟩
  | attemptReserved reserved =>
      obtain ⟨_, before, _, _, charged, same, _, _, _, _, _, _, _, now, _⟩ := reserved.charged
      obtain rfl := Option.mem_unique stored same
      exact ⟨_, now, Nat.le_succ _⟩
  | attemptClosed closed =>
      obtain ⟨_, completed, closed, conclusion⟩ := closed
      obtain ⟨_, _, _, before, _, _, _, _, same, _, _, _, now, _⟩ := closed.accounts
      obtain rfl := Option.mem_unique stored same
      have kept : after.control = completed.control := by
        cases conclusion with
        | retry | step => rfl
        | run _ cleanup => rw [cleanup.frame]
      exact ⟨_, kept.trans now, Nat.le_succ _⟩
  | callStarted started =>
      obtain ⟨before, later, same, _, continues, now⟩ := started.control
      exact continued ⟨before, later, same, continues, now⟩
  | actionConcluded concluded =>
      cases concluded with
      | step => exact kept rfl
      | run _ _ _ cleanup => exact kept (by rw [cleanup.frame])
  | cleanedUp cleanup => exact kept (by rw [cleanup.frame])

/-- Only reservations and completions of a step change its operation. -/
theorem Committed.operation_kept (committed : Committed db commit after)
    (established : commit ≠ .planPersisted) (unreserved : commit ≠ .attemptReserved stepId)
    (unclosed : commit ≠ .attemptClosed stepId) :
    after.operations.get? stepId = db.operations.get? stepId := by
  cases committed with
  | recorded | actionReleased => rfl
  | planPersisted => exact absurd rfl established
  | runMoved moved => rw [moved.frame]
  | planActivated activated => rw [activated.frame]
  | stepMoved moved => rw [moved.frame]
  | stepExecuted executed => rw [executed.frame]
  | approvalsChanged changed => rw [changed.frame]
  | setReleased decided released => rw [released.frame, decided.frame]
  | setClosed decided closed => rw [closed.frame, decided.frame]
  | runCancelled cancelled => rw [cancelled.frame]
  | attemptReserved reserved =>
      obtain ⟨_, _, _, _, _, _, _, _, _, _, _, _, _, _, operations⟩ := reserved.charged
      rw [operations]
      exact Table.get?_set_ne fun same => unreserved (congrArg Commit.attemptReserved same.symm)
  | attemptClosed closed =>
      obtain ⟨_, completed, closed, conclusion⟩ := closed
      obtain ⟨_, _, _, _, _, _, _, _, _, _, _, _, _, operations⟩ := closed.accounts
      have kept : completed.operations.get? stepId = db.operations.get? stepId := by
        rw [operations]
        exact Table.get?_set_ne fun same => unclosed (congrArg Commit.attemptClosed same.symm)
      cases conclusion with
      | retry | step => exact kept
      | run _ cleanup => rw [cleanup.frame]; exact kept
  | callStarted started => rw [started.frame]
  | actionConcluded concluded =>
      cases concluded with
      | step => rfl
      | run _ _ _ cleanup => rw [cleanup.frame]
  | cleanedUp cleanup => rw [cleanup.frame]

/-- The run row is kept, or takes one command: a write plan is never activated again. -/
theorem Committed.run (committed : Committed db commit after)
    (established : commit ≠ .planPersisted) :
    after.run = db.run ∨ ∃ command, command ≠ .recordPlan ∧
      (command = .activatePlan → db.run.approvalRequired ≠ some true) ∧
      db.run.Advanced command after.run := by
  cases committed with
  | recorded | actionReleased => exact .inl rfl
  | planPersisted => exact absurd rfl established
  | runMoved moved =>
      have ordinary := moved.ordinary
      simp only [List.mem_cons, not_or] at ordinary
      exact .inr ⟨_, ordinary.1, fun same => (moved.uncontrolled (by simp [same])).1, moved.run⟩
  | planActivated activated =>
      exact .inr ⟨_, by simp, fun _ => by simp [activated.readOnly], activated.run⟩
  | stepMoved moved => exact .inl (by rw [moved.frame])
  | stepExecuted executed => exact .inl (by rw [executed.frame])
  | approvalsChanged changed => exact .inl (by rw [changed.frame])
  | setReleased decided released =>
      have run := released.run
      rw [decided.frame] at run
      exact .inr ⟨_, by simp, by simp, run⟩
  | setClosed decided closed =>
      have run := closed.run
      rw [decided.frame] at run
      rcases run with rejected | cancelled
      · exact .inr ⟨_, by simp, by simp, rejected⟩
      · exact .inr ⟨_, by simp, by simp, cancelled⟩
  | runCancelled cancelled => exact .inr ⟨_, by simp, by simp, cancelled.run⟩
  | attemptReserved reserved => exact .inl (by rw [reserved.frame])
  | attemptClosed closed =>
      obtain ⟨_, completed, closed, conclusion⟩ := closed
      have same : completed.run = db.run := by rw [closed.frame]
      cases conclusion with
      | retry | step => exact .inl same
      | run _ cleanup => exact .inr ⟨_, by simp, by simp, same ▸ cleanup.run⟩
  | callStarted started => exact .inl (by rw [started.frame])
  | actionConcluded concluded =>
      cases concluded with
      | step => exact .inl rfl
      | run _ _ _ cleanup => exact .inr ⟨_, by simp, by simp, cleanup.run⟩
  | cleanedUp cleanup => exact .inr ⟨_, by simp, by simp, cleanup.run⟩

/-- Every attempt was there before, or was reserved under an id that no attempt had. -/
theorem Committed.attempt_source (committed : Committed db commit after)
    (established : commit ≠ .planPersisted)
    (found : after.operations.get? stepId = some now) {attempt : ExecutionAttempt}
    (member : attempt ∈ now.attempts) :
    (∃ operation, db.operations.get? stepId = some operation ∧
      ∃ earlier ∈ operation.attempts, earlier.id = attempt.id) ∨
    commit = .attemptReserved stepId ∧ db.attempt? attempt.id = none := by
  by_cases reserves : commit = .attemptReserved stepId
  · subst reserves
    cases committed with
    | attemptReserved reserved =>
        obtain ⟨command, _, _, operation, _, _, _, _, absent, present, _, reservation, _, _,
          operations⟩ :=
          reserved.charged
        rw [operations, Table.get?_set_self present, Option.some.injEq] at found
        subst found
        rcases List.mem_append.mp member with old | new
        · exact .inl ⟨operation, present, attempt, old, rfl⟩
        · rw [List.mem_singleton.mp new, reservation.id]
          exact .inr ⟨rfl, absent⟩
  · by_cases closes : commit = .attemptClosed stepId
    · subst closes
      cases committed with
      | attemptClosed closed =>
          obtain ⟨completion, completed, closed, conclusion⟩ := closed
          obtain ⟨_, ended, operation, _, _, present, _, _, _, _, _, _, _, operations⟩ :=
            closed.accounts
          have kept : after.operations = completed.operations := by
            cases conclusion with
            | retry | step => rfl
            | run _ cleanup => rw [cleanup.frame]
          rw [kept, operations, Table.get?_set_self present, Option.some.injEq] at found
          subst found
          obtain ⟨earlier, listed, same⟩ := List.mem_map.mp member
          refine .inl ⟨operation, present, earlier, listed, ?_⟩
          rw [← same]
          split <;> rfl
    · rw [committed.operation_kept established reserves closes] at found
      exact .inl ⟨now, found, attempt, member, rfl⟩

end Commits

end MarketingAgents
