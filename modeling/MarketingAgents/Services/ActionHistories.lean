import MarketingAgents.Services.ActionWitnesses
import MarketingAgents.Services.PossibleDeliveries

namespace MarketingAgents

open Library

/-! # The audited history of an action

Every transaction witnesses what it does to an action, except for a release for
another delivery attempt.
-/

variable {db middle after : Database} {actionId : String} {events : List ActionAudit}

theorem registrationEvents_audits {epoch : ApprovalEpoch}
    (unplanned : ∀ actionId, db.action? actionId = none)
    (left : after.actions = epoch.actions) (built : registrationEvents epoch = .ok events) :
    Audits actionId db events after := by
  refine eventsOf_audits built epoch.actions.nodup ?_ fun unlisted => ?_
  · rintro ⟨proposedId, stored⟩ listed ones mine
    simp only [bind_ok, requireSome_ok, pure_ok] at mine
    obtain ⟨proposed, _, first, proposal, second, waits, rfl⟩ := mine
    simp only [AuditEventFactory.actionProposed, bind_ok, require_ok, pure_ok] at proposal
    obtain ⟨_, _, rfl⟩ := proposal
    simp only [AuditEventFactory.actionAwaitingApproval, bind_ok, require_ok, pure_ok] at waits
    obtain ⟨_, ⟨_, waiting, _, _, version, _⟩, rfl⟩ := waits
    refine ⟨by simp, ?_⟩
    have found : after.action? proposedId = some stored := by
      rw [Database.action?, left]
      exact Table.get?_eq_some_iff.mpr listed
    unfold Audits
    rw [Database.actionPosition, unplanned, Database.actionPosition_of_found found,
      version trivial, waiting]
    simp only [aboutAction, decide_true, List.filter_cons_of_pos, List.filter_nil]
    exact .cons ⟨rfl, rfl, rfl⟩ (.single ⟨rfl, rfl, rfl⟩)
  · rw [unplanned, Database.action?, left]
    cases lookup : epoch.actions.get? actionId with
    | none => rfl
    | some stored => exact absurd (Table.mem_keys_iff.mpr ⟨stored, lookup⟩) unlisted

namespace TerminalExecutionCleanupService

theorem CleanedUp.all_audits {audits : List AuditEvent}
    (cleanup : CleanedUp db planHash failedStepId none failedStep middle)
    (built : cleanupEvents db failedStepId none { middle with audits } = .ok events) :
    Audits actionId db events { middle with audits } :=
  (cleanup.audits (by rfl) (fun _ _ => rfl) built).2 actionId (by simp)

theorem cleanupEvents_accounted {failedStepId : String}
    {control later : RunExecutionControl} {operations : Table String Operation}
    (stored : db.control = some control) (sealed : later.policyHash = control.policyHash) :
    cleanupEvents { db with control := some later, operations } failedStepId focalActionId after =
      cleanupEvents db failedStepId focalActionId after := by
  simp only [cleanupEvents, stored, requireSome, bind, Except.bind, sealed]
  rfl

end TerminalExecutionCleanupService

theorem ReadClosed.audits (closed : ReadClosed db stepId after)
    (built : TerminalExecutionCleanupService.cleanupEvents db stepId none after = .ok events) :
    Audits actionId db events after := by
  obtain ⟨completion, completed, closed, conclusion⟩ := closed
  have frame := closed.frame
  have actions : completed.actions = db.actions := by rw [frame]
  have run : completed.run = db.run := by rw [frame]
  cases conclusion with
  | retry _ =>
      obtain rfl := TerminalExecutionCleanupService.cleanupEvents_nil run built
      exact .nothing actions
  | step _ _ _ _ =>
      obtain rfl := TerminalExecutionCleanupService.cleanupEvents_nil run built
      exact .nothing actions
  | run _ cleanup =>
      obtain ⟨_, _, _, control, _, _, _, _, stored, _, _, _, charged, _⟩ := closed.accounts
      rw [charged] at frame
      generalize completed.operations = operations at frame
      subst frame
      exact cleanup.all_audits
        ((TerminalExecutionCleanupService.cleanupEvents_accounted stored (by rfl)).trans built)

namespace ExternalActionDispatcher

variable {recovered : String} {snapshot : ExternalAction} {now : Time}

theorem recoverStale_cases (accepted : recoverStale db recovered snapshot now = .ok after) :
    releasesForRetry snapshot now = true ∧ (∃ updated, after = db.storeAction recovered updated) ∨
      releasesForRetry snapshot now = false ∧ ∃ outcome,
        WriteConcluded db recovered outcome after := by
  simp only [recoverStale, bind_ok, require_ok, requireSome_ok] at accepted
  obtain ⟨lease, _, _, _, decision, classified, rest⟩ := accepted
  simp only [releasesForRetry, classified]
  cases decision with
  | retryPreCall | retryProviderIdempotent =>
      obtain ⟨_, updated, _, stores⟩ := releaseStale_effect (requireSome_ok.mp rest)
      exact .inl ⟨rfl, updated, stores⟩
  | failPreCallExhausted | outcomeUnknown =>
      simp only [bind_ok] at rest
      obtain ⟨_, unchanged, step, context, finalized⟩ := rest
      obtain ⟨stored, found, same⟩ := requireUnchanged_effect unchanged
      exact .inr ⟨rfl, _,
        finalizeWriteOutcome_effect finalized found same (writeCompletionContext_effect context)⟩

theorem recoverStale_audits (accepted : recoverStale db recovered snapshot now = .ok after)
    (built : (if releasesForRetry snapshot now then .ok []
      else conclusionEvents db recovered false after) = Except.ok events)
    (kept : (recovered = actionId && releasesForRetry snapshot now) = false) :
    Audits actionId db events after := by
  rcases recoverStale_cases accepted with ⟨releases, updated, rfl⟩ | ⟨concludes, outcome, concluded⟩
  · rw [if_pos releases] at built
    cases built
    rw [releases, Bool.and_true, decide_eq_false_iff_not] at kept
    exact .unchanged (by simp) (Database.storeAction_action?_ne (Ne.symm kept))
  · rw [concludes, if_neg (by simp)] at built
    exact conclusion_audits concluded built

end ExternalActionDispatcher

theorem RunCancellationService.requestOnce_actions {occurredAt : Time}
    (requested : requestOnce db actorDigest occurredAt = .ok after) :
      after.actions = db.actions := by
  simp only [requestOnce, bind_ok, require_ok, requireSome_ok, pure_ok, Prod.exists] at requested
  obtain ⟨_, _, _, _, _, _, _, _, _, _, fenced, fences, _, _, _, _, fails, _, _, cancels, _,
    _, runAdvanced, rfl⟩ := requested
  obtain ⟨_, _, _, _, _, rfl⟩ := Database.requestCancel_continues fences
  have kept := advanceSteps_actions fails
  exact (Database.advanceRun_actions runAdvanced).trans ((advanceSteps_actions cancels).trans kept)

theorem Committed.actions_same (committed : Committed db commit after)
    (quiet : commit = .recorded ∨ (∃ command, commit = .runMoved command) ∨
      commit = .planActivated ∨
      (∃ stepId command, commit = .stepMoved stepId command) ∨
        ∃ stepId, commit = .stepExecuted stepId) :
    after.actions = db.actions := by
  rcases quiet with rfl | ⟨_, rfl⟩ | rfl | ⟨_, _, rfl⟩ | ⟨_, rfl⟩
  · cases committed
    rfl
  · cases committed with
    | runMoved moved => rw [moved.frame]
  · cases committed with
    | planActivated activated => rw [activated.frame]
  · cases committed with
    | stepMoved moved => rw [moved.frame]
  · cases committed with
    | stepExecuted executed => rw [executed.frame]

theorem Committed.cleanup_audits (committed : Committed db commit after)
    (closes : commit = .recorded ∨ commit = .attemptReserved stepId ∨
      commit = .attemptClosed stepId ∨
      commit = .cleanedUp stepId)
    (built : TerminalExecutionCleanupService.cleanupEvents db stepId none after = .ok events) :
    Audits actionId db events after := by
  rcases closes with rfl | rfl | rfl | rfl
  · cases committed
    obtain rfl := TerminalExecutionCleanupService.cleanupEvents_nil (by rfl) built
    exact .nothing rfl
  · cases committed with
    | attemptReserved reserved =>
        obtain rfl := TerminalExecutionCleanupService.cleanupEvents_nil
          (by rw [reserved.frame]) built
        exact .nothing (by rw [reserved.frame])
  · cases committed with
    | attemptClosed closed => exact closed.audits built
  · cases committed with
    | cleanedUp cleanup => exact cleanup.all_audits built

theorem Committed.conclusion_audits {reconciled : Bool}
    (committed : Committed db (.actionConcluded concluded outcome) after)
    (built : ExternalActionDispatcher.conclusionEvents db concluded reconciled after = .ok events) :
    Audits actionId db events after := by
  cases committed with
  | actionConcluded concluded => exact ExternalActionDispatcher.conclusion_audits concluded built

theorem PlanPersistenceService.persist_audits {expectedVersion : Nat}
    {occurredAt activatedAt : Time} (sound : Sound db)
    (accepted : persist db plan expectedVersion occurredAt activatedAt = .ok after)
    (built : (ServiceTransaction.persistPlan plan expectedVersion occurredAt
      activatedAt).actionEvents db after = .ok events) : Audits actionId db events after := by
  have persisted := persist_effect accepted
  have unplanned :=
    (sound.binding.unplanned (sound.undecided (by simp [persisted.validated]))).2.2.1
  have installed := persisted.approvals
  simp only [ServiceTransaction.actionEvents] at built
  unfold SealedPlan.ApprovalsInstalled at installed
  split at built
  · rename_i none_
    rw [none_] at installed
    cases built
    exact .nothing installed.1
  · rename_i epoch some_
    rw [some_] at installed
    exact registrationEvents_audits unplanned installed.1 built

theorem RunWorker.fail_audits {now : Time} (committed : Committed db commit after)
    (commits : (ServiceTransaction.failRun now).Commits db commit)
    (built : (ServiceTransaction.failRun now).actionEvents db after = .ok events) :
    Audits actionId db events after := by
  simp only [ServiceTransaction.actionEvents] at built
  rcases commits with rfl | ⟨stepId, step, executing, selected, rfl⟩ | ⟨idle, rfl⟩
  · split at built
    · cases built
      exact .nothing (committed.actions_same (.inl rfl))
    · exact committed.cleanup_audits (.inl rfl) built
  · simp only [selected] at built
    exact committed.cleanup_audits (.inr (.inr (.inr rfl))) built
  · have actions : after.actions = db.actions := committed.actions_same (.inr (.inl ⟨_, rfl⟩))
    split at built
    · cases built
      exact .nothing actions
    · rename_i selected
      have idling : ¬(db.run.state = .executing ∧ after.run.state = .failed) := fun both => by
        rw [idle both.1] at selected
        cases selected
      rw [TerminalExecutionCleanupService.cleanupEvents, if_neg idling] at built
      obtain rfl := pure_ok.mp built
      exact .nothing actions

theorem ServiceTransaction.audits {transaction : ServiceTransaction} (sound : Sound db)
    (applied : transaction.Applies db after)
    (built : transaction.actionEvents db after = .ok events)
    (kept : (AuditedTransaction.service transaction).releasesForRetry actionId = false) :
    Audits actionId db events after := by
  have distinct := sound.distinct (.refl db)
  have changed : ∀ middle, ApprovalsChanged db middle →
    ApprovalBoundaryService.MembersDistinct middle :=
    fun _ => sound.distinct
  obtain ⟨commit, commits, committed⟩ := sound.commits applied
  cases transaction with
  | advanceRun =>
      cases built
      exact .nothing (committed.actions_same (.inr (.inl ⟨_, commits⟩)))
  | persistPlan => exact PlanPersistenceService.persist_audits sound applied built
  | activate =>
      cases built
      simp only [Commits, List.mem_cons, List.not_mem_nil, or_false] at commits
      exact .nothing (committed.actions_same (commits.imp id fun activated =>
        .inr (.inl activated)))
  | advanceStep =>
      cases built
      exact .nothing (committed.actions_same (.inr (.inr (.inr (.inl ⟨_, _, commits⟩)))))
  | executeLocal =>
      cases built
      simp only [Commits, List.mem_cons, List.not_mem_nil, or_false] at commits
      exact .nothing (committed.actions_same (commits.imp id fun executed =>
        .inr (.inr (.inr ⟨_, executed⟩))))
  | evaluateApproval =>
      obtain ⟨_, evaluated⟩ := applied
      exact ApprovalBoundaryService.evaluate_audits distinct evaluated built
  | decideApproval => exact ApprovalDecisionService.decide_audits changed applied built
  | renewApproval => exact ApprovalRecordService.renewExpired_audits applied built
  | cancelReadPlan =>
      cases built
      exact .nothing (RunCancellationService.requestOnce_actions applied)
  | cancelWritePlan => exact ApprovalBoundaryService.cancelOnce_audits distinct applied built
  | reserveRead =>
      simp only [Commits, List.mem_cons, List.not_mem_nil, or_false] at commits
      exact committed.cleanup_audits (.inr (commits.imp id .inl)) built
  | completeRead => exact committed.cleanup_audits (.inr (.inr (.inl commits))) built
  | denyRead =>
      simp only [Commits, List.mem_cons, List.not_mem_nil, or_false] at commits
      exact committed.cleanup_audits (commits.imp id fun cleaned => .inr (.inr cleaned)) built
  | recoverCancelledRead =>
      simp only [Commits, List.mem_cons, List.not_mem_nil, or_false] at commits
      exact committed.cleanup_audits (commits.imp id fun closed => .inr (.inl closed)) built
  | startWrite =>
      obtain ⟨_, dispatched⟩ := applied
      exact ExternalActionDispatcher.start_audits dispatched built
  | denyWrite =>
      simp only [actionEvents] at built
      rcases commits with rfl | ⟨stored, found, rfl⟩
      · split at built
        · cases built
          exact .nothing (committed.actions_same (.inl rfl))
        · exact committed.cleanup_audits (.inl rfl) built
      · simp only [found] at built
        exact committed.cleanup_audits (.inr (.inr (.inr rfl))) built
  | commitReceipt =>
      obtain ⟨_, _, rfl⟩ := applied
      cases built
      exact .nothing rfl
  | completeWrite | reconcileWrite =>
      obtain ⟨_, _, rfl⟩ := commits
      exact committed.conclusion_audits built
  | failWrite =>
      cases commits
      exact committed.conclusion_audits built
  | recoverWrite => exact ExternalActionDispatcher.recoverStale_audits applied built kept
  | closeWrite =>
      obtain ⟨_, rfl⟩ := commits
      exact committed.conclusion_audits built
  | failRun => exact RunWorker.fail_audits committed commits built

theorem AuditedTransaction.audits {transaction : AuditedTransaction} (sound : Sound db)
    (applied : transaction.Applies db after)
    (built : transaction.actionEvents db after = .ok events)
    (kept : transaction.releasesForRetry actionId = false) : Audits actionId db events after := by
  cases transaction with
  | service transaction => exact transaction.audits sound applied built kept
  | expireApproval => exact ApprovalRecordService.markExpired_audits applied built

theorem AuditedTransaction.keeps_sound {transaction : AuditedTransaction} (sound : Sound db)
    (applied : transaction.Applies db after) : Sound after := by
  cases transaction with
  | service transaction =>
      obtain ⟨_, _, committed⟩ := sound.commits applied
      exact sound.step committed
  | expireApproval =>
      simp only [Applies, ApprovalRecordService.markExpired, bind_ok, requireSome_ok] at applied
      obtain ⟨_, _, _, _, applied⟩ := applied
      split at applied
      · simp only [bind_ok, pure_ok] at applied
        obtain ⟨_, _, rfl⟩ := applied
        exact sound
      · exact sound.step (.approvalsChanged
          (Database.markExpired_effect (requireSome_ok.mp applied)))

/-- The events about an action are one for each version of it, in order, each beginning in
the state that the one before it left, and the last leaves the current state. -/
structure FullyAudited (run : AuditedRun) (actionId : String) : Prop where
  versions : ∀ stored, run.rows.action? actionId = some stored →
    (aboutAction actionId run.timeline).map (·.mutationVersion) =
      List.range' 1 stored.action.version
  chained : (aboutAction actionId run.timeline).IsChain fun earlier later =>
    later.previousState = some earlier.newState
  current : ∀ stored, run.rows.action? actionId = some stored →
    ∀ event ∈ (aboutAction actionId run.timeline).getLast?,
      some stored.action.state = some event.newState

/-- The events about an action lead from its absence to its row. -/
def AuditedRun.History (run : AuditedRun) (actionId : String) : Prop :=
  Path ActionAudit.Moves (0, none) (aboutAction actionId run.timeline)
    (run.rows.actionPosition actionId)

theorem AuditedRun.History.fullyAudited {run : AuditedRun} (history : run.History actionId) :
    FullyAudited run actionId := by
  have counts : ∀ {before event after}, ActionAudit.Moves before event after →
      event.mutationVersion = before.1 + 1 ∧ after.1 = event.mutationVersion := by
    rintro before event after ⟨version, _, rfl⟩
    exact ⟨version, rfl⟩
  have views : ∀ {before event after}, ActionAudit.Moves before event after →
      event.previousState = before.2 ∧ after.2 = some event.newState := by
    rintro before event after ⟨_, previous, rfl⟩
    exact ⟨previous, rfl⟩
  obtain ⟨numbered, count⟩ := history.numbered ActionAudit.mutationVersion Prod.fst counts
  refine ⟨fun stored found => ?_,
    history.linked Prod.snd _ (fun event => some event.newState) views,
    fun stored found event last => ?_⟩
  · have length : stored.action.version = (aboutAction actionId run.timeline).length := by
      simpa [Database.actionPosition_of_found found] using count
    rw [length]
    exact numbered
  · have left := history.ends Prod.snd (fun event => some event.newState)
      (fun move => (views move).2) event last
    rw [Database.actionPosition_of_found found] at left
    exact left

/-- In every run that never releases a stale claim of an action for another attempt, the
action is fully audited in every state. -/
theorem action_history_audited {run : AuditedRun} (reached : auditedMachine.ReachableWhere
      (fun _ transaction => transaction.releasesForRetry actionId = false) run) :
    FullyAudited run actionId := by
  have histories : Sound run.rows ∧ run.History actionId := by
    refine reached.invariant (fun run => Sound run.rows ∧ run.History actionId) ?_ ?_
    · rintro run ⟨received, empty⟩
      refine ⟨.of_received received, ?_⟩
      rw [AuditedRun.History, empty, Database.actionPosition, Database.action?, received.actions]
      exact .nil
    · rintro run transaction after ⟨sound, history⟩ kept ⟨applied, events, built, appended⟩
      refine ⟨transaction.keeps_sound sound applied, ?_⟩
      rw [AuditedRun.History, appended, aboutAction_append]
      exact Path.append history (transaction.audits sound applied built kept)
  exact histories.2.fullyAudited

namespace AuditedTransaction

def execute? (db : Database) : AuditedTransaction → Option Database
  | service transaction => transaction.execute? db
  | expireApproval requestId expectedVersion expiredAt =>
      (ApprovalRecordService.markExpired db requestId expectedVersion expiredAt).toOption

theorem applies_of_execute? {transaction : AuditedTransaction}
    (executed : transaction.execute? db = some after) :
    transaction.Applies db after := by
  cases transaction with
  | service transaction => exact ServiceTransaction.applies_of_execute? executed
  | expireApproval requestId expectedVersion expiredAt =>
      simp only [execute?] at executed
      cases accepted : ApprovalRecordService.markExpired db requestId expectedVersion expiredAt with
      | error reason =>
          rw [accepted] at executed
          cases executed
      | ok result =>
          rw [accepted] at executed
          cases executed
          exact accepted

end AuditedTransaction

namespace AuditedRun

/-- One audited transaction as a function. -/
def execute? (run : AuditedRun) (transaction : AuditedTransaction) : Option AuditedRun := do
  let rows ← transaction.execute? run.rows
  let events ← (transaction.actionEvents run.rows rows).toOption
  return { rows, timeline := run.timeline ++ events }

/-- A list of transactions, each checked before it is executed. -/
def execute : List (Database → AuditedTransaction) → (AuditedTransaction → Bool) → AuditedRun →
    Option AuditedRun
  | [], _, run => some run
  | make :: rest, check, run => do
      guard (check (make run.rows))
      let next ← run.execute? (make run.rows)
      execute rest check next

theorem execute_reachable {transactions : List (Database → AuditedTransaction)}
    {check : AuditedTransaction → Bool}
    (reached : auditedMachine.ReachableWhere (fun _ transaction => check transaction = true) run)
    (executed : execute transactions check run = some last) :
    auditedMachine.ReachableWhere (fun _ transaction => check transaction = true) last := by
  induction transactions generalizing run with
  | nil =>
      cases executed
      exact reached
  | cons make rest ih =>
      simp only [execute, execute?, bind, Option.bind_eq_some_iff,
        Option.guard_eq_some', exists_const, Option.pure_def, Option.some.injEq] at executed
      obtain ⟨allowed, next, ⟨rows, applied, events, built, rfl⟩, remaining⟩ := executed
      have appended : (make run.rows).actionEvents run.rows rows = .ok events := by
        cases outcome : (make run.rows).actionEvents run.rows rows with
        | error reason =>
            rw [outcome] at built
            cases built
        | ok result =>
            rw [outcome] at built
            cases built
            rfl
      have stepped : auditedMachine.step run (make run.rows)
          { rows, timeline := run.timeline ++ events } :=
        ⟨AuditedTransaction.applies_of_execute? applied, events, appended, rfl⟩
      exact ih (reached.next (make run.rows) allowed stepped) remaining

end AuditedRun

namespace PlannedWrite

def registered : SealedPlan := { plan with
  epoch := some { epoch with
    actions := ⟨[("action", { action := { proposed with version := 2, isValid := by decide }
                              attempts := [] })], by simp⟩ }
  readOnly := by simp
  approvalBound := by decide }

/-- The plan is approved, released and sent to its provider. -/
def dispatched : List (Database → AuditedTransaction) := [
  fun _ => .service (.advanceRun 1 .markValidated .none 1),
  fun _ => .service (.persistPlan registered 2 2 2),
  fun _ => .service (.decideApproval "request" "decision" true "release"
    (fun _ => ⟨"use", "reservation"⟩) 3),
  fun _ => .service (.startWrite dispatcher "action" "first" 4)]

/-- The call times out, and recovery releases the action for another attempt. -/
def released : List (Database → AuditedTransaction) :=
  dispatched ++ [fun db => .service (.recoverWrite "action" (snapshot db) (seconds 100))]

def admittedRun : AuditedRun where
  rows := PlannedRead.admitted
  timeline := []

theorem admittedRun_reachable {allowed : AuditedRun → AuditedTransaction → Prop} :
    auditedMachine.ReachableWhere allowed admittedRun :=
  .start ⟨PlannedRead.admitted_received, rfl⟩

/-- The released action is at version seven, and its last event is about version six. -/
theorem released_version_unwitnessed : ∃ run, auditedMachine.Reachable run ∧
    ¬FullyAudited run "action" := by
  have gap : (AuditedRun.execute released (fun _ => true) admittedRun).any (fun run =>
      (run.rows.action? "action").any fun stored =>
        (aboutAction "action" run.timeline).map (·.mutationVersion) ≠
          List.range' 1 stored.action.version) = true := by
    decide +kernel
  obtain ⟨run, executed, rows⟩ := (Option.any_eq_true _ _).mp gap
  obtain ⟨stored, found, unwitnessed⟩ := (Option.any_eq_true _ _).mp rows
  rw [decide_eq_true_eq] at unwitnessed
  have reached := AuditedRun.execute_reachable admittedRun_reachable executed
  exact ⟨run, reached.reachable, fun audited => unwitnessed (audited.versions stored found)⟩

theorem action_history_audited_dispatched : ∃ run, FullyAudited run "action" ∧
    (aboutAction "action" run.timeline).map (·.mutationVersion) = [1, 2, 3, 4, 5, 6] := by
  have complete : (AuditedRun.execute dispatched
      (fun transaction => !transaction.releasesForRetry "action") admittedRun).any (fun run =>
        (aboutAction "action" run.timeline).map (·.mutationVersion) = [1, 2, 3, 4, 5, 6]) =
            true := by
    decide +kernel
  obtain ⟨run, executed, versions⟩ := (Option.any_eq_true _ _).mp complete
  rw [decide_eq_true_eq] at versions
  have reached := AuditedRun.execute_reachable admittedRun_reachable executed
  exact ⟨run, action_history_audited (reached.weaken (by simp)), versions⟩

end PlannedWrite

end MarketingAgents
