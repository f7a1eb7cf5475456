import MarketingAgents.Persistence.ExecutionControlRepository
import MarketingAgents.Services.Transitions

namespace MarketingAgents

open Library

/-- What an executing READ step is doing, according to its attempts. -/
inductive ReadDisposition where
  | open
  | retryBackoff
deriving DecidableEq, Repr

/-- One attempt agrees with its step, its policy and the attempt before it. -/
def attemptBinds (planHash : String) (controlVersion : Nat) (step : RunStep) (index : Nat)
    (previousSourceControlVersion : Nat) (attempt : ExecutionAttempt) : Bool :=
  attempt.attemptNumber = index && attempt.operationKey = step.runtimePolicy.operationKey &&
    attempt.policyHash = planHash && attempt.kind = step.runtimePolicy.attemptKind &&
    attempt.sourceStepVersion = (if index = 1 then step.version - 1 else step.version) &&
    previousSourceControlVersion < attempt.sourceControlVersion &&
    attempt.sourceControlVersion < controlVersion

def attemptLineage (planHash : String) (controlVersion : Nat) (step : RunStep) :
    Nat → Nat → Option Time → List ExecutionAttempt → Except Rejection Unit
  | _, _, _, [] => .ok ()
  | index, previousSourceControlVersion, previousRetryNotBefore, attempt :: rest => do
      require (attemptBinds planHash controlVersion step index previousSourceControlVersion attempt)
        "ValueError" "executing READ step attempt lineage is contradictory"
      if index = 1 then
        require (attempt.eligibleAt = attempt.reservedAt) "ValueError"
          "first READ attempt has invalid eligibility"
      else
        require (previousRetryNotBefore = some attempt.eligibleAt ∧
            attempt.eligibleAt ≤ attempt.reservedAt) "ValueError"
          "retried READ attempt lacks exact prior authority"
      if rest ≠ [] then
        require (attempt.outcome = some .transientFailure ∧ attempt.retryNotBefore ≠ none ∧
            attempt.terminalReasonCode = none) "ValueError"
          "superseded READ attempt lacks retry authority"
      attemptLineage planHash controlVersion step (index + 1) attempt.sourceControlVersion
        attempt.retryNotBefore rest

/-- The disposition that the latest attempt leaves its executing step in. -/
def latestDisposition (latest : ExecutionAttempt) : Except Rejection ReadDisposition :=
  match latest.outcome with
  | none => .ok .open
  | some outcome =>
      if outcome = .transientFailure ∧ latest.retryNotBefore ≠ none ∧
          latest.terminalReasonCode = none then .ok .retryBackoff
      else reject "ValueError" "executing READ step has no open call or retry authority"

namespace Database

variable (db : Database)

/-- Distinguish an open READ call from durable retry backoff, fail closed otherwise. -/
def executingReadDisposition (planHash : String) (controlVersion : Nat) (stepId : String)
    (step : RunStep) : Except Rejection ReadDisposition := do
  let policy := step.runtimePolicy
  require (step.planHash = planHash ∧ step.effect = .read ∧ step.state = .executing ∧
      policy.attemptKind ∈ [.model, .tool] ∧ 2 ≤ step.version)
    "ValueError" "executing READ step binding is invalid"
  let attempts ← db.listAttempts stepId policy.operationKey
  require (attempts ≠ [] ∧ attempts.length ≤ policy.maxAttempts)
    "ValueError" "executing READ step attempt lineage is incomplete"
  attemptLineage planHash controlVersion step 1 0 none attempts
  let latest ← requireSome attempts.getLast?
    "ValueError" "executing READ step attempt lineage is incomplete"
  latestDisposition latest

/-- The steps of a list whose attempts put them in retry backoff. -/
def retryBackoffSteps (planHash : String) (controlVersion : Nat) (code message : String) :
    List (String × RunStep) → Except Rejection (List (String × RunStep)) :=
  selectWhere fun (stepId, step) =>
    match db.executingReadDisposition planHash controlVersion stepId step with
    | .ok disposition => .ok (disposition = .retryBackoff)
    | .error _ => reject code message

/-- The plan hash of the sealed plan, which every step carries. -/
def planHash? : Option String := db.steps.rows.head?.map (·.planHash)

end Database

namespace RunCancellationService

/-- Fence future calls before cancelling queued work and the parent run. -/
def requestOnce (db : Database) (actorDigest : String) (occurredAt : Time) :
    Except Rejection Database := do
  let run := db.run
  require (run.state.terminal = false) "terminal_state_immutable"
    "terminal Run cannot accept another cancellation"
  let planHash ← requireSome db.planHash? "approval_boundary_service_required"
    "write plans cancel through their approval boundary"
  require (run.approvalRequired = some false) "approval_boundary_service_required"
    "write plans cancel through their approval boundary"
  let control ← requireSome db.control "execution_control_invalid"
    "Run cancellation lacks its exact sealed execution control"
  require (control.policyHash = planHash) "execution_control_invalid"
    "Run cancellation lacks its exact sealed execution control"
  let fenced ← db.requestCancel control.version actorDigest occurredAt
  let retryBackoff ← fenced.retryBackoffSteps planHash control.version
    "execution_attempt_lineage_invalid" "executing READ step lacks exact attempt lineage"
    (db.stepsWhere fun _ step => step.state = .executing)
  let (failed, failedDb) ← advanceSteps run .fail (.terminal "run_cancelled") occurredAt
    "cancellation_conflict" "queued step changed before cancellation committed" retryBackoff fenced
  let (cancelled, cancelledDb) ← advanceSteps run .cancel (.terminal "run_cancelled") occurredAt
    "cancellation_conflict" "queued step changed before cancellation committed"
    (db.stepsWhere fun _ step => step.state ∈ [.pending, .ready]) failedDb
  let (runResult, after) ← cancelledDb.advanceRun .cancel (.cancellation "operator_cancelled" 0 0)
    occurredAt "cancellation_conflict" "Run changed before cancellation committed"
  return after.appendAudits (stepEvents (failed ++ cancelled) ++
    [.runTransition runResult.transition none])

end RunCancellationService

end MarketingAgents
