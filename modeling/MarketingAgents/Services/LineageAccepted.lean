import MarketingAgents.Services.PlannedBudget
import MarketingAgents.Services.ServiceSoundness

namespace MarketingAgents

open Library

/-! # The lineage check accepts every history

Cancellations classify the executing READ steps behind the fence that they set,
under the control version they read before it.  Cleanups classify them under
the current version, after they changed other rows.
-/

theorem TerminalExecutionCleanupService.idleSibling_ok {db : Database} {controlVersion : Nat}
    (classified : db.executingReadDisposition planHash controlVersion stepId step =
      .ok disposition) :
    ∃ isIdle, idleSibling db planHash controlVersion cancelledStepIds stepId step = .ok isIdle := by
  unfold idleSibling
  split
  · exact ⟨_, rfl⟩
  · split
    · exact ⟨_, rfl⟩
    · simp [classified]

/-- No callable READ step that is executing is ever refused by the lineage
check, whether a cancellation makes it behind its fence or a cleanup makes it
in the middle of its transaction. -/
theorem executing_reads_classified {db : Database} (reached : serviceMachine.Reachable db)
    {control : RunExecutionControl} (stored : db.control = some control) {stepId : String}
    {step : RunStep} (found : db.step? stepId = some step) (callable : step.callable)
    (executing : step.state = .executing) :
    (∃ disposition, db.executingReadDisposition control.policyHash control.version stepId step =
      .ok disposition) ∧
    (∀ expectedControlVersion actorDigest requestedAt fenced,
      db.requestCancel expectedControlVersion actorDigest requestedAt = .ok fenced →
      ∃ disposition, fenced.executingReadDisposition control.policyHash
        control.version stepId step = .ok disposition) ∧
    ∀ (middle : Database) controlVersion cancelledStepIds,
      middle.operations.get? stepId = db.operations.get? stepId → control.version ≤ controlVersion →
      ∃ isIdle, TerminalExecutionCleanupService.idleSibling middle control.policyHash controlVersion
        cancelledStepIds stepId step = .ok isIdle := by
  obtain ⟨operation, same, present, stored', sealed, binds, lineage⟩ :=
    (Sound.reachable reached).operation_of_step found callable
  obtain rfl := Option.mem_unique stored stored'
  rw [sealed]
  have accepted : ∀ (middle : Database) controlVersion,
      middle.operations.get? stepId = db.operations.get? stepId → control.version ≤ controlVersion →
      ∃ disposition, middle.executingReadDisposition step.planHash controlVersion stepId step =
        .ok disposition := fun middle controlVersion operations newer =>
    (lineage.mono newer).classified (operations.trans present) callable binds executing
  refine ⟨accepted db control.version rfl (Nat.le_refl _), ?_, ?_⟩
  · intro expectedControlVersion actorDigest requestedAt fenced fences
    obtain ⟨_, _, _, _, _, rfl⟩ := Database.requestCancel_continues fences
    exact accepted _ control.version rfl (Nat.le_refl _)
  · intro middle controlVersion cancelledStepIds operations newer
    obtain ⟨disposition, classified⟩ := accepted middle controlVersion operations newer
    exact TerminalExecutionCleanupService.idleSibling_ok classified

namespace PlannedRead

/-- The run before it is validated. -/
def admitted : Database := { received with run := { received.run with
  state := .received
  version := 1
  updatedAt := 0 } }

theorem admitted_received : Received admitted := ⟨rfl, rfl, rfl, rfl, rfl, rfl, rfl⟩

def adapter : ReadAdapter where
  inputWithinLimits := fun _ _ => .ok ()
  validateContract := fun _ _ => .ok ()
  redact := fun _ input => input

def timedOut : ReadOutcome where
  classification := .timedOut
  outputArtifactId := none
  runtimeDenialCode := none
  safeErrorCode := none

/-- The plan is activated, and the first attempt of its step times out. -/
def timesOut : List (Database → ServiceTransaction) := [
  fun _ => .advanceRun 1 .markValidated .none 1,
  fun _ => .persistPlan plan.toSealedPlan 2 2 2,
  fun _ => .activate 3,
  fun _ => .reserveRead adapter { stepId := "step", inputPayload := "{}" } "first" 4,
  fun _ => .completeRead { actorId := "worker", correlationId := "request" } "first"
    "step" timedOut 5]

def backedOff : Option Database := ServiceTransaction.run? (fun _ _ => true) timesOut admitted

theorem executing_reads_classified_backoff : ∃ db control step, backedOff = some db ∧
    db.control = some control ∧ db.step? "step" = some step ∧ step.state = .executing ∧
    ∃ disposition, db.executingReadDisposition control.policyHash control.version "step" step =
      .ok disposition := by
  have waits : backedOff.any (fun db => db.control.isSome && (db.step? "step").any fun step =>
      step.callable && step.state = .executing) = true := by decide +kernel
  obtain ⟨db, ran, rows⟩ := (Option.any_eq_true _ _).mp waits
  simp only [Bool.and_eq_true, Option.isSome_iff_exists, Option.any_eq_true,
    decide_eq_true_eq] at rows
  obtain ⟨⟨control, stored⟩, step, found, callable, executing⟩ := rows
  have start : serviceMachine.ReachableWhere (fun _ _ => true = true) admitted :=
    .start admitted_received
  have reached := ServiceTransaction.run?_reachable start ran
  exact ⟨db, control, step, ran, stored, found, executing,
    (executing_reads_classified reached.reachable stored found callable executing).1⟩

end PlannedRead

end MarketingAgents
