import Mathlib
import MarketingAgents.Services.ExecutionAccounting

namespace MarketingAgents

open Library

/-! # Repeated completions

What an accepted completion leaves behind is kept by every later operation.  The
same command is answered by it again, unless the parent of the attempt made
the repository record something else than the command said.
-/

namespace Database

variable {db after last : Database} {stepId attemptId : String} {attempt : ExecutionAttempt}

theorem findSome?_same {α β : Type} {items : List α} {first second : α → Option β}
    (same : ∀ item ∈ items, first item = second item) :
    items.findSome? first = items.findSome? second := by
  induction items with
  | nil => rfl
  | cons item rest ih =>
      rw [List.forall_mem_cons] at same
      rw [List.findSome?_cons, List.findSome?_cons, same.1, ih same.2]

theorem attempt?_set (operations : after.operations = db.operations.set stepId changed)
    (present : db.operations.get? stepId = some found)
    (same : changed.attempts.find? (·.id = attemptId) = found.attempts.find? (·.id = attemptId)) :
    after.attempt? attemptId = db.attempt? attemptId := by
  rw [attempt?, attempt?, operations, Table.set, Table.modify, Table.mapRows, List.findSome?_map]
  refine findSome?_same fun entry member => ?_
  obtain ⟨key, operation⟩ := entry
  by_cases owner : key = stepId
  · subst owner
    obtain rfl : found = operation :=
      Option.some.inj (present.symm.trans (Table.get?_eq_some_iff.mpr member))
    simp [same]
  · simp [owner]

theorem finished_id {other : String} (attempt : ExecutionAttempt) :
    (if attempt.id = other then { attempt with completion := some completion } else attempt).id =
      attempt.id := by
  split <;> rfl

theorem finish_find? {operation : Operation} {other : String} (differs : other ≠ attemptId) :
    (operation.finish other completion).attempts.find? (·.id = attemptId) =
      operation.attempts.find? (·.id = attemptId) := by
  simp only [Operation.finish, List.find?_map, Function.comp_def, finished_id]
  cases found : operation.attempts.find? (·.id = attemptId) with
  | none => rfl
  | some attempt =>
      have named : attempt.id = attemptId := by simpa using List.find?_some found
      rw [Option.map_some, if_neg fun same => differs (same.symm.trans named)]

theorem attempt?_finish {operation : Operation}
    (operations : after.operations = db.operations.set stepId
      (operation.finish attemptId completion))
    (present : db.operations.get? stepId = some operation)
    (found : db.attempt? attemptId = some (stepId, attempt)) :
    after.attempt? attemptId = some (stepId, { attempt with completion := some completion }) := by
  have closed : after.attempt? attemptId = (db.attempt? attemptId).map fun pair =>
      (pair.1, if pair.1 = stepId then { pair.2 with completion := some completion }
          else pair.2) := by
    rw [attempt?, attempt?, operations, Table.set, Table.modify, Table.mapRows, List.findSome?_map,
      List.map_findSome?]
    refine findSome?_same fun entry member => ?_
    obtain ⟨key, stored⟩ := entry
    by_cases owner : key = stepId
    · subst owner
      obtain rfl : operation = stored :=
        Option.some.inj (present.symm.trans (Table.get?_eq_some_iff.mpr member))
      simp only [Function.comp_apply, if_true, Operation.finish, List.find?_map, finished_id]
      cases located : operation.attempts.find? (·.id = attemptId) with
      | none => rfl
      | some attempt =>
          have named : attempt.id = attemptId := by simpa using List.find?_some located
          simp [named]
    · simp [owner, Function.comp_def]
  rw [closed, found, Option.map_some, if_pos rfl]

/-- A completed attempt is stored under a started control that has passed a version. -/
structure Completed (stepId : String) (attempt : ExecutionAttempt) (version : Nat)
    (db : Database) : Prop where
  found : db.attempt? attempt.id = some (stepId, attempt)
  closed : attempt.completion ≠ none
  control : ∃ control window, db.control = some control ∧ control.window = some window ∧
    version ≤ control.version

variable {version : Nat}

theorem Completed.keep {control : RunExecutionControl}
    (completed : Completed stepId attempt version db)
    (found : after.attempt? attempt.id = db.attempt? attempt.id)
    (stored : after.control = some control) (opened : control.window = some window)
    (newer : ∀ before, db.control = some before → before.version ≤ control.version) :
    Completed stepId attempt version after where
  found := found.trans completed.found
  closed := completed.closed
  control := by
    obtain ⟨before, _, was, _, passed⟩ := completed.control
    exact ⟨control, window, stored, opened, passed.trans (newer before was)⟩

theorem attempt?_congr (operations : after.operations = db.operations) :
    after.attempt? attemptId = db.attempt? attemptId := by
  rw [attempt?, attempt?, operations]

theorem Completed.complete {completion : AttemptCompletion}
    (completed : Completed stepId attempt version db)
    (completes : db.completeAttempt command = .ok (completion, after)) :
    Completed stepId attempt version after := by
  obtain ⟨owner, other, control, window, located, stored, opened, ⟨_, rfl⟩ | ⟨isOpen, completes⟩⟩ :=
    completeAttempt_effect completes
  · exact completed
  obtain ⟨operation, operationFound, _, _, _, _, rfl⟩ := completeOpenAttempt_effect completes
  obtain ⟨present, _⟩ := operation?_eq_some.mp operationFound
  have differs : command.attemptId ≠ attempt.id := by
    intro same
    rw [same, completed.found] at located
    obtain ⟨_, rfl⟩ := Prod.mk.inj (Option.some.inj located)
    exact completed.closed isOpen
  refine completed.keep (attempt?_set rfl present (finish_find? differs)) rfl opened
    fun before was => ?_
  obtain rfl : control = before := Option.mem_unique stored was
  exact Nat.le_succ _

/-- No operation loses a completed attempt or the window of its control. -/
theorem Completed.step (completed : Completed stepId attempt version db)
    (stepped : accountingMachine.step db operation after) :
      Completed stepId attempt version after := by
  obtain ⟨control, window, stored, opened, _⟩ := completed.control
  have same : ∀ before, db.control = some before → control = before := fun before was =>
    Option.mem_unique stored was
  cases operation with
  | startExecution =>
      obtain ⟨before, was, ⟨_, _, _, rfl⟩ | ⟨unopened, _⟩⟩ := startExecution_effect stepped
      · exact completed
      · rw [same before was, unopened] at opened
        cases opened
  | reserveAttempt command =>
      obtain ⟨reserved, accepted⟩ := stepped
      rcases reserveAttempt_effect accepted with ⟨_, rfl⟩ | ⟨absent, fresh⟩
      · exact completed
      obtain ⟨before, beforeWindow, _, operation, charged, _, was, open', _, _, _, _, _, _,
        operationFound, binds, charge, rfl⟩ := reserveNewAttempt_effect fresh
      obtain ⟨present, _⟩ := operation?_eq_some.mp operationFound
      obtain ⟨charges, _, _⟩ := chargeLogicalCall_effect charge
      -- The id of a new attempt was free.
      have differs : reserved.id ≠ attempt.id := by
        rw [binds.id]
        intro named
        rw [named, completed.found] at absent
        cases absent
      refine completed.keep (attempt?_set rfl present ?_) rfl
        (show _ = some beforeWindow from ?_) fun earlier found => ?_
      · rw [List.find?_append]
        simp [differs]
      · rw [charges]
        exact open'
      · obtain rfl : before = earlier := Option.mem_unique was found
        exact Nat.le_succ _
  | completeAttempt =>
      obtain ⟨_, completes⟩ := stepped
      exact completed.complete completes
  | recoverExpiredAttempt =>
      obtain ⟨_, recovers⟩ := stepped
      obtain ⟨_, _, _, _, _, _, _, _, ⟨_, rfl⟩ | ⟨_, _, completes⟩⟩ :=
        recoverExpiredAttempt_effect recovers
      · exact completed
      · exact completed.complete completes
  | reserveDeliveryCall dispatcher actionId =>
      obtain ⟨_, dispatched⟩ := stepped
      rcases ExternalActionDispatcher.claimAndMarkCallStarted_effect dispatched with rfl |
        ⟨_, _, found, _, started⟩
      · exact completed
      obtain ⟨before, beforeWindow, _, _, _, _, _, _, was, open', _, _, _, _, charge, rfl⟩ :=
        ExternalActionDispatcher.startAdmitted_effect found started
      obtain ⟨charges, _, _⟩ := chargeLogicalCall_effect charge
      refine completed.keep (attempt?_congr rfl) rfl
        (show _ = some beforeWindow from ?_) fun earlier located => ?_
      · rw [charges]
        exact open'
      · obtain rfl : before = earlier := Option.mem_unique was located
        exact Nat.le_succ _
  | requestCancel =>
      obtain ⟨before, was, ⟨_, _, _, rfl⟩ | ⟨_, _, _, rfl⟩⟩ := requestCancel_effect stepped
      · exact completed
      · obtain rfl := same before was
        refine completed.keep (attempt?_congr rfl) rfl opened fun earlier found => ?_
        rw [← same earlier found]
        exact Nat.le_succ _
  | elsewhere =>
      obtain ⟨keeps, rfl⟩ := stepped
      refine completed.keep (attempt?_congr keeps.operations)
        (keeps.control.trans stored) opened fun earlier found => ?_
      rw [← same earlier found]

/-- The repository recorded what a command said: it made no transient failure final because the run
had failed, and put no error code of its own in the place of the command's. -/
def recordsCommand (db : Database) (control : RunExecutionControl)
    (command : AttemptCompletionCommand) : Bool :=
  (command.outcome ≠ .transientFailure || db.cancellationFenced control || !db.terminalParent) &&
    command.safeErrorCode.all fun code =>
      if db.cancellationFenced control then code = "run_cancelled"
      else if db.terminalParent then code = "parent_run_terminal"
      else true

theorem completionReplay_completionOf {command : AttemptCompletionCommand}
    {control later : RunExecutionControl} {attemptNumber : Nat} (valid : command.validate = .ok ())
    (passed : command.expectedControlVersion + 1 ≤ later.version) :
    completionReplay command (db.completionOf command control window policy attemptNumber) later =
      db.recordsCommand control command := by
  obtain ⟨id, outcome, expected, completedAt, safeErrorCode, outputArtifactId⟩ := command
  simp only [AttemptCompletionCommand.validate, bind_ok, require_ok] at valid
  obtain ⟨_, _, valid⟩ := valid
  change expected + 1 ≤ later.version at passed
  by_cases success : outcome = .succeeded
  · subst success
    rw [if_pos rfl] at valid
    simp only [bind_ok, require_ok] at valid
    obtain ⟨_, rfl, _⟩ := valid
    simp [completionReplay, completionOf, effectiveOutcome, recordsCommand, passed]
  · rw [if_neg success, require_ok] at valid
    obtain rfl : outputArtifactId = none := valid
    cases fenced : db.cancellationFenced control <;> cases terminal :
      db.terminalParent <;> cases outcome <;>
      cases safeErrorCode <;>
      simp [completionReplay, completionOf, effectiveOutcome, effectiveErrorCode, retryDisposition,
        recordsCommand, fenced, terminal, passed] at success ⊢ <;>
      exact eq_comm

/-- A completed attempt keeps its completion whatever happens later.  Its command is answered by
that completion and changes nothing if the repository recorded what it said, and is refused for good
otherwise. -/
theorem completion_replay {command : AttemptCompletionCommand} {completion : AttemptCompletion}
    {control : RunExecutionControl}
    (located : db.attempt? command.attemptId = some (stepId, attempt))
    (isOpen : attempt.completion = none) (stored : db.control = some control)
    (completes : db.completeAttempt command = .ok (completion, after))
    (run : accountingMachine.Run after last) :
    (∃ kept, last.attempt? command.attemptId = some (stepId, kept) ∧
      kept.completion = some completion) ∧
      last.completeAttempt command = if db.recordsCommand control command then .ok
        (completion, last)
        else reject "attempt_completion_conflict" "attempt already has a different completion" := by
  have valid : command.validate = .ok () := by
    simp only [completeAttempt, bind_ok] at completes
    obtain ⟨_, valid, _⟩ := completes
    exact valid
  obtain ⟨owner, other, before, window, found, was, opened, ⟨finished, _⟩ | ⟨_, completes⟩⟩ :=
    completeAttempt_effect completes
  · obtain ⟨_, rfl⟩ := Prod.mk.inj (Option.mem_unique located found)
    rw [isOpen] at finished
    cases finished
  obtain ⟨rfl, rfl⟩ := Prod.mk.inj (Option.mem_unique located found)
  obtain rfl : control = before := Option.mem_unique stored was
  obtain ⟨operation, operationFound, _, version, _, completionIs, rfl⟩ :=
    completeOpenAttempt_effect completes
  obtain ⟨present, _⟩ := operation?_eq_some.mp operationFound
  obtain ⟨_, _, _, named⟩ := attempt?_eq_some located
  generalize changed : ({ db with control := some _, operations := _ } : Database) = after at run
  have recorded : after.attempt? command.attemptId =
    some (stepId, { attempt with completion := some completion }) :=
    attempt?_finish (by rw [← changed]) present located
  have completed : Completed stepId { attempt with completion := some completion }
      (command.expectedControlVersion + 1) last := by
    refine run.preserves _ ?_ fun completed _ stepped => completed.step stepped
    exact {
      found := (congrArg after.attempt? named).trans recorded
      closed := nofun
      control := by
        rw [← changed]
        exact ⟨_, window, rfl, opened, Nat.succ_le_succ version.ge⟩ }
  obtain ⟨kept, _, later, laterWindow, current, started, passed⟩ := completed
  replace kept := (congrArg last.attempt? named).symm.trans kept
  refine ⟨⟨_, kept, rfl⟩, ?_⟩
  have answers : completionReplay command completion later = db.recordsCommand control command := by
    rw [completionIs]
    exact completionReplay_completionOf valid passed
  simp only [completeAttempt, valid, kept, current, started, requireSome, require, answers,
    bind, Except.bind]
  cases db.recordsCommand control command <;> rfl

end Database

namespace ApprovedWrite

def openAttempt : ExecutionAttempt where
  id := "attempt"
  operationKey := "publish"
  policyHash := "plan"
  kind := .tool
  attemptNumber := 1
  sourceControlVersion := 2
  sourceStepVersion := 3
  eligibleAt := 1
  reservedAt := 1
  callDeadlineAt := 1 + seconds 30
  inputSchemaId := "input"
  redactedInput := ""
  inputClassification := "internal"
  completion := none

/-- The run failed while a call of its step was open. -/
def failedRun : Database :=
  { database .required with
    run := { (database .required).run with state := .failed }
    operations := {
      entries := [("step", {
        policy := {
          operationKey := "publish"
          kind := .tool
          policyHash := "plan"
          requestSchemaId := none
          dataClassification := "internal"
          maxAttempts := 2
          retryBackoff := .none
          stepTimeoutSeconds := 30
          rateLimit
          callable := nofun }
        attempts := [openAttempt] })]
      nodup := by simp } }

def lateFailure : AttemptCompletionCommand where
  attemptId := "attempt"
  outcome := .transientFailure
  expectedControlVersion := 2
  completedAt := 2
  safeErrorCode := none
  outputArtifactId := none

def canceller : String := String.ofList (List.replicate 64 'a')

/-- The identical command is refused after its completion and a cancellation request. -/
theorem completion_replay_late : ∃ completion after last,
    failedRun.completeAttempt lateFailure = .ok (completion, after) ∧
      after.requestCancel 3 canceller 3 = .ok last ∧
      last.completeAttempt lateFailure =
        reject "attempt_completion_conflict" "attempt already has a different completion" := by
  have accepted : ((failedRun.completeAttempt lateFailure).toOption.any fun pair =>
      (pair.2.requestCancel 3 canceller 3).toOption.isSome) = true := by decide +kernel
  obtain ⟨⟨completion, after⟩, known, cancelled⟩ := (Option.any_eq_true _ _).mp accepted
  obtain ⟨last, requested⟩ := Option.isSome_iff_exists.mp cancelled
  have completes := ok_of_toOption known
  have cancels := ok_of_toOption requested
  have run : accountingMachine.Run after last :=
    .tail (.requestCancel 3 canceller 3) .refl trivial cancels
  have located : failedRun.attempt? lateFailure.attemptId = some ("step", openAttempt) := by decide
  have replies := (Database.completion_replay located rfl rfl completes run).2
  exact ⟨completion, after, last, completes, cancels, replies.trans (if_neg (by decide))⟩

end ApprovedWrite

end MarketingAgents
