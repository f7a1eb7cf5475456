import MarketingAgents.Services.LineageAccepted
import MarketingAgents.Services.RunPhases
import MarketingAgents.Services.UnitsOfWork

namespace MarketingAgents

open Library

/-! # Calls in flight

A READ attempt without an outcome and a provider call without a conclusion
are concluded later, by a transaction that needs their step to be executing.
-/

namespace Database

variable (db : Database) (stepId : String)

/-- The operation of the step has an attempt without an outcome. -/
def ReadOpen : Prop := ∃ operation, db.operations.get? stepId = some operation ∧
  ∃ attempt ∈ operation.attempts, attempt.completion = none

/-- The action of the step has a provider call that was started and not concluded. -/
def WriteCalling : Prop := ∃ actionId stored, db.action? actionId = some stored ∧
  stored.action.contract.stepId = stepId ∧ stored.calling

def InFlight : Prop := db.ReadOpen stepId ∨ db.WriteCalling stepId

end Database

/-- Every call in flight belongs to a step that is executing. -/
def CallsHeld (db : Database) : Prop :=
  ∀ stepId, db.InFlight stepId → ∃ step, db.step? stepId = some step ∧ step.state = .executing

/-- The general lifecycle services are only sent the commands that their callers
send: a step is readied, and a run fails through its worker alone. -/
def ServiceTransaction.Sent : ServiceTransaction → Prop
  | advanceStep _ _ command _ _ => command = .markReady
  | advanceRun _ command _ _ => command ≠ .fail
  | _ => True

/-- A denial that ends the run, and a failure after a worker's error, close a
step that has no call in flight. -/
def ServiceTransaction.Spares (db : Database) : ServiceTransaction → Prop
  | denyRead _ stepId error _ => error.code ∈ terminalRuntimeControlDenialCodes →
      db.run.state = .executing → ¬ db.InFlight stepId
  | denyWrite actionId _ error _ => error.code ∈ terminalRuntimeControlDenialCodes →
      db.run.state = .executing → ∀ stored, db.action? actionId = some stored →
      ¬ db.InFlight stored.action.contract.stepId
  | failRun _ => db.run.state = .executing → ∀ stepId step,
      RunWorker.failedStep db = some (stepId, step) → ¬ db.InFlight stepId
  | _ => True

/-- What the condition means for the commit of a transaction. -/
structure Commit.Spares (db : Database) (commit : Commit) : Prop where
  cleaned : ∀ stepId, commit = .cleanedUp stepId → ¬ db.InFlight stepId
  moved : ∀ stepId command, commit = .stepMoved stepId command → command = .markReady

variable {db after : Database} {commit : Commit} {stepId actionId : String} {step now : RunStep}
variable {stored later : StoredAction}

theorem ControlledReadExecutor.denial_recorded {error : Rejection} {occurredAt : Time}
    (harmless : ¬ (error.code ∈ terminalRuntimeControlDenialCodes ∧ db.run.state = .executing))
    (recorded : recordRuntimeControlDenial db context stepId error occurredAt = .ok after) :
    ∃ audits, after = { db with audits } := by
  unfold recordRuntimeControlDenial at recorded
  split at recorded
  · exact ⟨db.audits, (pure_ok.mp recorded).symm⟩
  · split at recorded
    · exact ⟨db.audits, (pure_ok.mp recorded).symm⟩
    · exact ⟨_, (pure_ok.mp recorded).symm⟩

theorem ExternalActionDispatcher.denial_recorded {error : Rejection} {occurredAt : Time}
    (harmless : ¬ (error.code ∈ terminalRuntimeControlDenialCodes ∧ db.run.state = .executing))
    (recorded : recordRuntimeControlDenial db actionId leaseOwner error occurredAt = .ok after) :
    ∃ audits, after = { db with audits } := by
  unfold recordRuntimeControlDenial at recorded
  split at recorded
  · exact ⟨db.audits, (pure_ok.mp recorded).symm⟩
  · split at recorded
    · exact ⟨db.audits, (pure_ok.mp recorded).symm⟩
    · simp only [bind_ok] at recorded
      obtain ⟨step, _, recorded⟩ := recorded
      exact ⟨_, (pure_ok.mp recorded).symm⟩

namespace ServiceTransaction

variable {transaction : ServiceTransaction}

/-- A transaction that spares the calls in flight commits a change that spares them. -/
theorem commits_sparing (sound : Sound db) (stepped : serviceMachine.step db transaction after)
    (sent : transaction.Sent) (spares : transaction.Spares db) :
    ∃ commit, transaction.Commits db commit ∧ Committed db commit after ∧ commit.Spares db := by
  obtain ⟨commit, commits, committed⟩ := sound.commits stepped
  have spared : (∀ stepId, commit = .cleanedUp stepId → ¬ db.InFlight stepId) →
      (∀ stepId command, commit = .stepMoved stepId command → command = .markReady) →
      ∃ commit, transaction.Commits db commit ∧ Committed db commit after ∧ commit.Spares db :=
    fun cleaned moved => ⟨commit, commits, committed, cleaned, moved⟩
  cases transaction with
  | denyRead context stepId error occurredAt =>
      by_cases harmful : error.code ∈ terminalRuntimeControlDenialCodes ∧ db.run.state = .executing
      · apply spared
        · rintro focal rfl
          simp only [Commits, List.mem_cons, Commit.cleanedUp.injEq, List.not_mem_nil, or_false,
            reduceCtorEq, false_or] at commits
          rw [commits]
          exact spares harmful.1 harmful.2
        · rintro focal command rfl
          simp [Commits] at commits
      · obtain ⟨audits, rfl⟩ := ControlledReadExecutor.denial_recorded harmful stepped
        exact ⟨.recorded, by simp [Commits], .audited audits, by simp, by simp⟩
  | denyWrite actionId leaseOwner error occurredAt =>
      by_cases harmful : error.code ∈ terminalRuntimeControlDenialCodes ∧ db.run.state = .executing
      · apply spared
        · rintro focal rfl
          simp only [Commits, reduceCtorEq, Commit.cleanedUp.injEq, false_or] at commits
          obtain ⟨stored, found, rfl⟩ := commits
          exact spares harmful.1 harmful.2 stored found
        · rintro focal command rfl
          simp [Commits] at commits
      · obtain ⟨audits, rfl⟩ := ExternalActionDispatcher.denial_recorded harmful stepped
        exact ⟨.recorded, .inl rfl, .audited audits, by simp, by simp⟩
  | failRun now =>
      apply spared
      · rintro focal rfl
        simp only [Commits, reduceCtorEq, and_false, or_false, false_or,
          Commit.cleanedUp.injEq] at commits
        obtain ⟨_, step, executing, selected, rfl⟩ := commits
        exact spares executing _ step selected
      · rintro focal command rfl
        simp [Commits] at commits
  | advanceStep focal expectedVersion command context occurredAt =>
      apply spared
      · rintro stepId rfl
        simp [Commits] at commits
      · rintro stepId moved rfl
        simp only [Commits, Commit.stepMoved.injEq] at commits
        rw [commits.2]
        exact sent
  | closeWrite | completeWrite | reconcileWrite =>
      apply spared
      · rintro stepId rfl
        simp [Commits] at commits
      · rintro stepId moved rfl
        simp [Commits] at commits
  | recoverWrite =>
      apply spared
      · rintro stepId rfl
        simp [Commits] at commits
      · rintro stepId moved rfl
        simp [Commits] at commits
  | _ =>
      apply spared
      · rintro stepId rfl
        simp [Commits] at commits
      · rintro stepId moved rfl
        simp [Commits] at commits

end ServiceTransaction

section Classes

variable (sound : Sound db) (found : db.step? stepId = some step)

include sound

/-- The classifier reads off the last attempt whether the call of a READ step is open. -/
theorem Sound.disposition_open {controlVersion : Nat} (found : db.step? stepId = some step)
    (classified : db.executingReadDisposition planHash controlVersion stepId step =
      .ok disposition) :
    disposition = .open ↔ db.ReadOpen stepId := by
  simp only [Database.executingReadDisposition, bind_ok, require_ok, requireSome_ok] at classified
  obtain ⟨_, ⟨_, read, executing, calls, _⟩, attempts, listed, _, _, _, _, attempt, last, latest⟩ :=
    classified
  have callable : step.callable := by
    have called : step.runtimePolicy.attemptKind ≠ .noCall := by
      rintro same
      simp [same] at calls
    simp [RunStep.callable, read, called]
  obtain ⟨operation, control, present, _, _, binds, lineage⟩ :=
    sound.operation_of_step found callable
  have same : operation.attempts = attempts := by
    simp only [operationBindsStep, Bool.and_eq_true, decide_eq_true_eq] at binds
    have lookup : db.operation? stepId step.runtimePolicy.operationKey = some operation :=
      Database.operation?_eq_some.mpr ⟨present, binds.1.1.1.1.1.1.1.1⟩
    simp only [Database.listAttempts, lookup, Option.map_some, Option.getD_some,
      bind_ok, require_ok, pure_ok] at listed
    obtain ⟨_, _, rfl⟩ := listed
    rfl
  subst same
  constructor
  · rintro rfl
    refine ⟨operation, present, attempt, List.mem_of_getLast? last, ?_⟩
    unfold latestDisposition at latest
    split at latest
    · rename_i undecided
      simpa [ExecutionAttempt.outcome] using undecided
    · split at latest <;> simp [reject] at latest
  · rintro ⟨again, same, isOpenAttempt, member, isOpen⟩
    obtain rfl := Option.mem_unique present same
    obtain ⟨earlier, split⟩ := lineage.history.open_is_last member isOpen
    rw [split, List.getLast?_concat, Option.some.injEq] at last
    subst last
    simp only [latestDisposition, ExecutionAttempt.outcome, isOpen, Option.map_none,
      Except.ok.injEq]
      at latest
    exact latest.symm

include found

theorem Sound.readOpen_callable (isOpen : db.ReadOpen stepId) : step.callable := by
  obtain ⟨operation, present, _⟩ := isOpen
  obtain ⟨again, same, callable, _⟩ := sound.binding.operations stepId operation present
  obtain rfl := Option.mem_unique found same
  exact callable

theorem Sound.action_write (present : db.action? actionId = some stored)
    (own : stored.action.contract.stepId = stepId) : step.effect = .write := by
  obtain ⟨again, same, write, _⟩ := sound.binding.actions actionId stored present
  obtain rfl := Option.some.inj (found.symm.trans (own ▸ same))
  exact write

theorem Sound.readOpen_of_read (read : step.effect = .read) (inFlight : db.InFlight stepId) :
    db.ReadOpen stepId := by
  rcases inFlight with isOpen | ⟨actionId, stored, present, own, _⟩
  · exact isOpen
  · have write := sound.action_write found present own
    simp [read] at write

end Classes

section Commits

variable (governed : Governed db) (committed : Committed db commit after)
variable (established : commit ≠ .planPersisted) (spares : commit.Spares db)

include committed in
theorem Committed.readied_kept (readies : commit = .stepMoved focal .markReady)
    (found : db.step? stepId = some step) (executing : step.state = .executing) :
    after.step? stepId = some step := by
  subst readies
  cases committed with
  | stepMoved moved =>
      rw [Database.step?, moved.steps]
      refine (Table.get?_set_ne ?_).trans found
      rintro rfl
      obtain rfl := Option.mem_unique found moved.found
      have waiting := moved.advanced.moved.1
      simp [executing] at waiting

include governed committed established spares in
/-- An executing step is closed for the work that it is about, or because it has
no call in flight. -/
theorem Committed.executing_kept (found : db.step? stepId = some step)
    (executing : step.state = .executing)
    (unconcerned : ¬ commit.Concerns db stepId) (inFlight : db.InFlight stepId) :
    after.step? stepId = some step := by
  obtain ⟨now, lookup, event⟩ := committed.stepEvent governed.sound.binding established found
  cases event with
  | kept => exact lookup
  | readied advanced | released advanced | started advanced | attempted advanced
  | called advanced =>
      have waiting := advanced.moved.1
      simp [executing] at waiting
  | executed start =>
      have waiting := start.moved.1
      simp [executing] at waiting
  | closed ends advanced closing =>
      cases closing with
      | waiting idle => exact absurd executing idle
      | concerned focal => exact absurd focal unconcerned
      | ordinary sent =>
          obtain rfl := spares.moved _ _ sent
          exact committed.readied_kept sent found executing
      | uncallable read uncalled =>
          have callable := governed.sound.readOpen_callable found
            (governed.sound.readOpen_of_read found read inFlight)
          simp [RunStep.callable, uncalled] at callable
      | backedOff read classified =>
          have isOpen := governed.sound.readOpen_of_read found read inFlight
          have impossible := (governed.sound.disposition_open found classified).mpr isOpen
          cases impossible
      | unstarted present own pending =>
          rcases inFlight with isOpen | ⟨otherId, other, again, ownAgain, calling⟩
          · have callable := governed.sound.readOpen_callable found isOpen
            simp [RunStep.callable, governed.sound.action_write found present own] at callable
          · obtain rfl := governed.sound.binding.ownStep _ _ _ _ present again
              (own.trans ownAgain.symm)
            obtain rfl := Option.mem_unique present again
            exact absurd (preCall_iff.mp pending).2 calling.2

include governed committed established spares in
/-- An open attempt was open before, on another step than the one whose attempt
the commit is about, or it was just reserved. -/
theorem Committed.readOpen_held (held : CallsHeld db) (isOpen : after.ReadOpen stepId) :
    ∃ step, after.step? stepId = some step ∧ step.state = .executing := by
  obtain ⟨operation, present, attempt, member, unfinished⟩ := isOpen
  by_cases reserves : commit = .attemptReserved stepId
  · subst reserves
    cases committed with
    | attemptReserved reserved =>
        have change := reserved.step
        rw [Database.step?]
        generalize after.steps = steps at change ⊢
        cases change with
        | first found _ _ advanced => exact ⟨_, Table.get?_set_self found, advanced.moved.2.2⟩
        | retry found _ _ executing => exact ⟨_, found, executing⟩
  by_cases closes : commit = .attemptClosed stepId
  · subst closes
    cases committed with
    | attemptClosed closed =>
        obtain ⟨completion, completed, closed, conclusion⟩ := closed
        obtain ⟨_, finished, before, control, _, earlier, listed, isOpen, stored, _, _, _, _,
          operations⟩ :=
          closed.accounts
        have same : after.operations = completed.operations := by
          cases conclusion with
          | retry | step => rfl
          | run _ cleanup => rw [cleanup.frame]
        rw [same, operations, Table.get?_set_self earlier, Option.some.injEq] at present
        subst present
        obtain ⟨step, found, callable, _⟩ := governed.sound.binding.operations stepId before earlier
        have lineage := governed.sound.lineage control stepId step before stored found earlier
        obtain ⟨superseded, split⟩ := lineage.history.open_is_last listed isOpen
        rw [lineage.history.finish_open split, List.mem_append, List.mem_singleton] at member
        rcases member with old | rfl
        · have failed := lineage.history.superseded_failed
          rw [split, List.pairwise_append] at failed
          have outcome := failed.2.2 attempt old finished (by simp)
          simp [ExecutionAttempt.outcome, unfinished] at outcome
        · cases unfinished
  · rw [committed.operation_kept established reserves closes] at present
    have inFlight : db.InFlight stepId := .inl ⟨operation, present, attempt, member, unfinished⟩
    obtain ⟨step, found, executing⟩ := held stepId inFlight
    refine ⟨step, committed.executing_kept governed established spares found executing ?_ inFlight,
      executing⟩
    intro concerned
    cases commit with
    | attemptClosed focal => exact closes (congrArg Commit.attemptClosed concerned)
    | cleanedUp focal => exact spares.cleaned focal rfl (concerned ▸ inFlight)
    | actionConcluded actionId outcome =>
        obtain ⟨stored, focal, own⟩ := concerned
        have callable := governed.sound.readOpen_callable found
          ⟨operation, present, attempt, member, unfinished⟩
        simp [RunStep.callable, governed.sound.action_write found focal own] at callable
    | _ => exact concerned

theorem ActionEvent.calling_source (event : ActionEvent db commit actionId stored later)
    (calling : later.calling) : later = stored ∨ commit = .callStarted actionId := by
  have target := calling.1
  cases event with
  | kept => exact .inl rfl
  | reconsidered changed =>
      have waiting := changed.state
      simp [target] at waiting
  | released _ _ reserved => simp [reserved.state] at target
  | called started => exact .inr started
  | retried _ released => simp [released.state] at target
  | @concluded outcome _ _ change =>
      have final := outcome.actionState_final
      simp [← change.state, target] at final
  | cancelled _ change => simp [change.state] at target

theorem WriteConcluded.concluded_state (concluded : WriteConcluded db actionId outcome after) :
    ∃ later, after.action? actionId = some later ∧ later.action.state = outcome.actionState := by
  cases concluded with
  | step found change => exact ⟨_, Table.get?_set_self found, change.state⟩
  | run found change _ cleanup =>
      exact ⟨_, Table.get?_set_self ((ExternalActionDispatcher.focal_kept cleanup).trans found),
        change.state⟩

include governed committed established spares in
theorem Committed.calling_held (held : CallsHeld db) (calling : after.WriteCalling stepId) :
    ∃ step, after.step? stepId = some step ∧ step.state = .executing := by
  obtain ⟨actionId, later, lookup, own, calls⟩ := calling
  obtain ⟨stored, found, contract⟩ := (committed.samePlan established).actions.source lookup
  obtain ⟨again, same, event⟩ := committed.actionEvent established found
  obtain rfl := Option.mem_unique lookup same
  rcases event.calling_source calls with rfl | starts
  · have inFlight : db.InFlight stepId := .inr ⟨actionId, later, found, own, calls⟩
    obtain ⟨step, present, executing⟩ := held stepId inFlight
    refine ⟨step, committed.executing_kept governed established spares present
      executing ?_ inFlight, executing⟩
    intro concerned
    cases commit with
    | attemptClosed focal =>
        obtain rfl : focal = stepId := concerned
        cases committed with
        | attemptClosed closed =>
            obtain ⟨_, _, closed, _⟩ := closed
            obtain ⟨_, attempt, operation, _, _, earlier, member, isOpen, _⟩ := closed.accounts
            have callable := governed.sound.readOpen_callable present
              ⟨operation, earlier, attempt, member, isOpen⟩
            simp [RunStep.callable, governed.sound.action_write present found own] at callable
    | cleanedUp focal => exact spares.cleaned focal rfl (concerned ▸ inFlight)
    | actionConcluded focal outcome =>
        obtain ⟨other, otherFound, otherOwn⟩ := concerned
        obtain rfl := governed.sound.binding.ownStep _ _ _ _ otherFound found
          (otherOwn.trans own.symm)
        cases committed with
        | actionConcluded concluded =>
            obtain ⟨now, present, state⟩ := concluded.concluded_state
            obtain rfl := Option.mem_unique lookup present
            have final := outcome.actionState_final
            simp [← state, calls.1] at final
    | _ => exact concerned
  · subst starts
    cases committed with
    | callStarted started =>
        obtain ⟨authority, again, _, call, named, change, _⟩ := started.call
        obtain rfl := Option.mem_unique found call.found
        rw [named, ← contract, own] at change
        rw [Database.step?]
        generalize after.steps = steps at change ⊢
        cases change with
        | first present advanced => exact ⟨_, Table.get?_set_self present, advanced.moved.2.2⟩
        | retry present executing => exact ⟨_, present, executing⟩

end Commits

namespace CallsHeld

theorem of_received (received : Received db) : CallsHeld db := by
  rintro stepId (⟨operation, present, _⟩ | ⟨actionId, stored, found, _⟩)
  · simp [received.operations] at present
  · simp [Database.action?, received.actions] at found

theorem persisted (persisted : PlanPersisted db plan after) (sound : Sound db) :
    CallsHeld after := by
  have undecided := sound.undecided (by simp [persisted.validated])
  rintro stepId (⟨operation, present, attempt, member, _⟩ | ⟨actionId, stored, found, _, calling⟩)
  · rw [persisted.operations] at present
    simp [(plan.operation_fresh present).1] at member
  · have waiting := (persisted.action_fresh (sound.binding.unplanned undecided).2.2.1 found).1
    simp [calling.1] at waiting

theorem next (governed : Governed db) (held : CallsHeld db) (committed : Committed db commit after)
    (spares : commit.Spares db) : CallsHeld after := by
  by_cases established : commit ≠ .planPersisted
  · rintro stepId (isOpen | calling)
    · exact committed.readOpen_held governed established spares held isOpen
    · exact committed.calling_held governed established spares held calling
  · rw [not_not] at established
    subst established
    cases committed with
    | planPersisted change => exact .persisted change governed.sound

theorem reachable (reached : serviceMachine.ReachableWhere
    (fun db transaction => transaction.Sent ∧ transaction.Spares db) db) : Governed db ∧
      CallsHeld db := by
  refine reached.invariant (fun db => Governed db ∧ CallsHeld db)
    (fun received => ⟨.of_received received, .of_received received⟩) ?_
  rintro db transaction after ⟨governed, held⟩ ⟨sent, spares⟩ stepped
  obtain ⟨commit, _, committed, spared⟩ :=
    ServiceTransaction.commits_sparing governed.sound stepped sent spares
  exact ⟨governed.next stepped, held.next governed committed spared⟩

end CallsHeld

theorem Governed.completable (governed : Governed db) (found : db.step? stepId = some step)
    (executing : step.state = .executing)
    (unwaited : db.run.state ∉ [.planned, .awaitingApproval]) :
    db.run.state ∈ [.executing, .cancelled, .failed, .rejected] := by
  cases state : db.run.state with
  | received | validated =>
      have undecided := governed.sound.undecided (by simp [state])
      rw [(governed.sound.binding.unplanned undecided).1 stepId] at found
      cases found
  | planned | awaitingApproval => simp [state] at unwaited
  | executing | cancelled | failed | rejected => simp
  | completed =>
      have succeeded := governed.phase.completed state stepId step found
      simp [executing] at succeeded

theorem Governed.completionContext_ok {attempt : ExecutionAttempt}
    (governed : Governed db) (found : db.step? stepId = some step)
    (executing : step.state = .executing)
    (present : db.operations.get? stepId = some operation) (member : attempt ∈ operation.attempts)
    (isOpen : attempt.completion = none) : ∃ control, db.control = some control ∧
      ControlledReadExecutor.completionContext db attempt.id stepId = .ok (step, control) := by
  have sound := governed.sound
  obtain ⟨again, control, same, stored, sealed, binds, lineage⟩ :=
    sound.operation_of_step found
      (sound.readOpen_callable found ⟨operation, present, attempt, member, isOpen⟩)
  obtain rfl := Option.mem_unique present same
  have located := (sound.known stepId).located operation attempt present member
  have state := governed.completable found executing fun waiting => by
    have unattempted := governed.phase.unattempted waiting stepId operation present
    simp [unattempted] at member
  have policy := (lineage.repeats binds executing member).policyHash
  refine ⟨control, stored, ?_⟩
  simp only [ControlledReadExecutor.completionContext, located, found, stored, requireSome, bind_ok,
    require_ok, pure_ok, Except.ok.injEq, Prod.exists, Prod.mk.injEq]
  exact ⟨_, _, ⟨rfl, rfl⟩, step, rfl, control, rfl, (),
    ⟨isOpen, executing, rfl, policy.trans sealed.symm, sealed,
    by simpa [ControlledReadExecutor.completable] using state⟩, rfl, rfl⟩

theorem Governed.writeCompletionContext_ok (governed : Governed db)
    (found : db.action? actionId = some stored) (calling : stored.calling)
    (present : db.step? stored.action.contract.stepId = some step)
    (executing : step.state = .executing) :
    ExternalActionDispatcher.writeCompletionContext db stored.action [.executing] = .ok step := by
  have state := governed.completable present executing fun waiting => by
    have undelivered := governed.phase.undelivered waiting actionId stored found
    simp [calling.1] at undelivered
  obtain ⟨again, same, write, plan⟩ := governed.sound.binding.actions actionId stored found
  obtain rfl := Option.mem_unique present same
  have key := governed.members.keyed actionId stored step found present
  simp only [ExternalActionDispatcher.writeCompletionContext,
    ExternalActionDispatcher.sealedWriteStep, present, requireSome, bind_ok, require_ok, pure_ok]
  exact ⟨step, ⟨step, rfl, (), ⟨plan.symm, key.symm, write⟩, rfl⟩, (),
    ⟨state, by simp [executing]⟩, rfl⟩

/-- No unit of work strands a call, as long as each is isolated and no denial and no
failure of a worker closes a step whose call is in flight: every open attempt and every
started call belong to an executing step, and what concludes them finds the rows it checks. -/
theorem calls_in_flight_held {commits : CommitRule}
    (reached : (unitOfWorkMachine commits).ReachableWhere
      (fun db work => (work.transaction.Sent ∧ work.transaction.Spares db) ∧
        work.Isolated commits db) db) :
    (∀ stepId operation attempt, db.operations.get? stepId = some operation →
      attempt ∈ operation.attempts → attempt.completion = none →
      ∃ step control, db.step? stepId = some step ∧ step.state = .executing ∧
      db.control = some control ∧
        ControlledReadExecutor.completionContext db attempt.id stepId = .ok (step, control)) ∧
    ∀ actionId stored, db.action? actionId = some stored → stored.calling →
      ∃ step, db.step? stored.action.contract.stepId = some step ∧ step.state = .executing ∧
        ExternalActionDispatcher.writeCompletionContext db stored.action [.executing] =
          .ok step := by
  obtain ⟨governed, held⟩ := CallsHeld.reachable (isolated_reachable reached)
  constructor
  · intro stepId operation attempt present member isOpen
    obtain ⟨step, found, executing⟩ :=
      held stepId (.inl ⟨operation, present, attempt, member, isOpen⟩)
    obtain ⟨control, stored, accepted⟩ :=
      governed.completionContext_ok found executing present member isOpen
    exact ⟨step, control, found, executing, stored, accepted⟩
  · intro actionId stored found calling
    obtain ⟨step, present, executing⟩ := held _ (.inr ⟨actionId, stored, found, rfl, calling⟩)
    exact ⟨step, present, executing,
      governed.writeCompletionContext_ok found calling present executing⟩

namespace PlannedRead

/-- The transactions that spare every call, whatever the rows. -/
def sparing : ServiceTransaction → Bool
  | .denyRead .. | .denyWrite .. | .failRun _ => false
  | .advanceStep _ _ command _ _ => command = .markReady
  | .advanceRun _ command _ _ => command ≠ .fail
  | _ => true

theorem sparing_spares {db : Database}
    (harmless : sparing transaction = true) : transaction.Sent ∧ transaction.Spares db := by
  cases transaction <;> simp_all [sparing, ServiceTransaction.Sent, ServiceTransaction.Spares]

/-- The first attempt of the planned step is in flight. -/
def reserved : Option Database :=
  ServiceTransaction.run? (fun _ => sparing) (timesOut.take 4) admitted

theorem calls_in_flight_held_reserved : ∃ db operation attempt, reserved = some db ∧
    db.operations.get? "step" = some operation ∧ attempt ∈ operation.attempts ∧
    ∃ step control, db.step? "step" = some step ∧ step.state = .executing ∧
    db.control = some control ∧
      ControlledReadExecutor.completionContext db attempt.id "step" = .ok (step, control) := by
  have inFlight : reserved.any (fun db => (db.operations.get? "step").any fun operation =>
      operation.attempts.any fun attempt => attempt.completion = none) = true := by decide +kernel
  obtain ⟨db, ran, rows⟩ := (Option.any_eq_true _ _).mp inFlight
  simp only [Option.any_eq_true, List.any_eq_true, decide_eq_true_eq] at rows
  obtain ⟨operation, present, attempt, member, isOpen⟩ := rows
  have start : serviceMachine.ReachableWhere (fun _ transaction =>
    sparing transaction = true) admitted :=
    .start admitted_received
  have reached : serviceMachine.ReachableWhere
      (fun db transaction => transaction.Sent ∧ transaction.Spares db) db :=
    (ServiceTransaction.run?_reachable start ran).weaken sparing_spares
  exact ⟨db, operation, attempt, ran, present, member,
    (calls_in_flight_held (serial_reachable reached)).1 "step" operation attempt present
      member isOpen⟩

/-- The worker of the run fails while the call of its step is in flight. -/
def stranded : Option Database :=
  ServiceTransaction.run? (fun _ _ => true) (timesOut.take 4 ++ [fun _ => .failRun 6]) admitted

def answered : ReadOutcome where
  classification := .succeeded
  outputArtifactId := some "artifact"
  runtimeDenialCode := none
  safeErrorCode := none

/-- The step of the open attempt is failed, and the answer of its call is refused. -/
theorem call_stranded : ∃ db operation attempt step, stranded = some db ∧
    serviceMachine.Reachable db ∧ db.run.state = .failed ∧
    db.operations.get? "step" = some operation ∧ attempt ∈ operation.attempts ∧
    attempt.completion = none ∧ db.step? "step" = some step ∧ step.state = .failed ∧
    (ControlledReadExecutor.completeOnce db
      { actorId := "worker", correlationId := "request" } attempt.id
      "step" answered 7).isOk = false := by
  have strands : stranded.any (fun db => db.run.state = .failed &&
      (db.operations.get? "step").any fun operation => operation.attempts.any fun attempt =>
        attempt.completion = none && ((db.step? "step").any fun step => step.state = .failed) &&
        !(ControlledReadExecutor.completeOnce db { actorId := "worker", correlationId := "request" }
          attempt.id "step" answered 7).isOk) = true := by decide +kernel
  obtain ⟨db, ran, rows⟩ := (Option.any_eq_true _ _).mp strands
  simp only [Bool.and_eq_true, Bool.not_eq_true', Option.any_eq_true, List.any_eq_true,
    decide_eq_true_eq]
    at rows
  obtain ⟨ended, operation, present, attempt, member, ⟨isOpen, step, found, closed⟩, refused⟩ :=
    rows
  have start : serviceMachine.ReachableWhere (fun _ _ => true = true) admitted :=
    .start admitted_received
  exact ⟨db, operation, attempt, step, ran,
    (ServiceTransaction.run?_reachable start ran).reachable, ended,
    present, member, isOpen, found, closed, refused⟩

end PlannedRead

end MarketingAgents
