import MarketingAgents.Persistence.Delivery
import MarketingAgents.Persistence.ReleaseAuthority

namespace MarketingAgents

open Library

/-- The rows of an action whose effect can have been requested at most once,
or again only after the provider was known to deduplicate it. -/
structure AtMostOnceDelivery (stored : StoredAction) : Prop where
  contiguous : stored.attemptNumbers = List.range' 1 stored.action.deliveryAttemptCount
  oneOpen : (stored.attempts.filter (·.isOpen)).length ≤ 1
  withinLimit :
    (stored.attempts.filter (·.started)).length ≤ stored.action.contract.deliveryAttemptLimit
  retriedBefore : ∀ earlier ∈ stored.attempts, ∀ later ∈ stored.attempts,
    earlier.attemptNumber < later.attemptNumber → earlier.started → later.started →
    earlier.conclusion = some .providerRetry
  unavailableOnce : stored.action.contract.idempotencySupport = .unavailable →
    (stored.attempts.filter (·.started)).length ≤ 1

namespace StoredAction.DeliveryHistory

variable {stored : StoredAction}

theorem at_most_one (history : stored.DeliveryHistory) {test : DispatchAttempt → Bool}
    (last : ∀ attempt ∈ stored.attempts, test attempt →
      attempt.attemptNumber = stored.action.deliveryAttemptCount) :
    (stored.attempts.filter test).length ≤ 1 := by
  have distinct : ((stored.attempts.filter test).map (·.attemptNumber)).Nodup := by
    have all : stored.attemptNumbers.Nodup := by
      rw [history.numbered]
      exact List.nodup_range'
    exact all.sublist (List.filter_sublist.map _)
  have constant : (stored.attempts.filter test).map (·.attemptNumber) =
      List.replicate (stored.attempts.filter test).length stored.action.deliveryAttemptCount := by
    rw [List.eq_replicate_iff]
    refine ⟨by simp, ?_⟩
    intro number listed
    obtain ⟨attempt, member, rfl⟩ := List.mem_map.mp listed
    exact last attempt (List.mem_filter.mp member).1 (List.mem_filter.mp member).2
  rw [constant] at distinct
  exact List.nodup_replicate.mp distinct

theorem open_is_last (history : stored.DeliveryHistory) :
    ∀ attempt ∈ stored.attempts, attempt.isOpen →
      attempt.attemptNumber = stored.action.deliveryAttemptCount := by
  intro attempt member isOpen
  refine (history.settled_or_last member).resolve_left fun released => ?_
  exact releasedAttempt_finished released (Option.isNone_iff_eq_none.mp isOpen)

theorem unavailable_started_is_last (history : stored.DeliveryHistory)
    (unavailable : stored.action.contract.idempotencySupport = .unavailable) :
    ∀ attempt ∈ stored.attempts, attempt.started →
      attempt.attemptNumber = stored.action.deliveryAttemptCount := by
  intro attempt member started
  refine (history.settled_or_last member).resolve_left fun released => ?_
  have retryable := history.retried attempt member (releasedAttempt_provider_retry released started)
  rw [unavailable] at retryable
  cases retryable

theorem atMostOnce (history : stored.DeliveryHistory) : AtMostOnceDelivery stored where
  contiguous := history.numbered
  oneOpen := history.at_most_one history.open_is_last
  withinLimit := by
    have counted : stored.attempts.length = stored.action.deliveryAttemptCount := by
      have lengths := congrArg List.length history.numbered
      simpa [attemptNumbers] using lengths
    calc (stored.attempts.filter (·.started)).length
        ≤ stored.attempts.length := List.length_filter_le _ _
      _ = stored.action.deliveryAttemptCount := counted
      _ ≤ stored.action.contract.deliveryAttemptLimit := stored.action.attemptsWithinLimit
  retriedBefore := by
    intro earlier earlierMember later laterMember before started _
    have bound := (history.number_bounds laterMember).2
    exact releasedAttempt_provider_retry (history.earlier earlier earlierMember (by omega)) started
  unavailableOnce := fun unavailable =>
    history.at_most_one (history.unavailable_started_is_last unavailable)

end StoredAction.DeliveryHistory

/-- The stored action keeps its history, and every read still in use is of it or of an older
version. -/
def DeliveryInvariant (actionId : String) (trace : DeliveryTrace) : Prop :=
  ∃ stored, trace.now.action? actionId = some stored ∧ stored.DeliveryHistory ∧
    ∀ snapshot ∈ trace.seen, ∀ old, snapshot.action? actionId = some old → old.Precedes stored

variable {actionId : String} {trace later : DeliveryTrace} {operation : DeliveryOperation}
variable {stored : StoredAction}

theorem DeliveryOperation.apply_step {now after : Database}
    (found : now.action? actionId = some stored) (history : stored.DeliveryHistory)
    (read : ∀ snapshot, operation.snapshot? = some snapshot → ∀ old,
      snapshot.action? actionId = some old → old.Precedes stored)
    (applied : operation.apply actionId now = some after) :
    ∃ updated, after.action? actionId = some updated ∧ DeliveryStep stored updated := by
  cases operation with
  | claimReserved => exact Database.claimReserved_step found history (read _ rfl) applied
  | markCallStarted => exact Database.markCallStarted_step found history applied
  | completeSucceeded => exact Database.complete_step found history applied
  | completeFailed => exact Database.complete_step found history applied
  | markOutcomeUnknown => exact Database.complete_step found history applied
  | cancelUnstartedAfterRelease =>
      exact Database.cancelUnstartedAfterRelease_step found history (read _ rfl) applied
  | releaseStaleForRetry => exact Database.releaseStaleForRetry_step found history applied
  | failExhaustedStalePreCall => exact Database.failExhaustedStalePreCall_step found history applied
  | elsewhere other =>
      simp only [apply, Option.ite_none_right_eq_some, Option.some.injEq] at applied
      obtain ⟨same, rfl⟩ := applied
      exact ⟨stored, same.trans found, .unchanged history⟩

theorem DeliveryInvariant.step (found : trace.now.action? actionId = some stored)
    (history : stored.DeliveryHistory)
    (read : ∀ snapshot ∈ trace.seen, ∀ old, snapshot.action? actionId = some old →
      old.Precedes stored)
    (stepped : (deliveryMachine actionId).step trace operation later) :
    ∃ updated, later.now.action? actionId = some updated ∧ DeliveryStep stored updated ∧
      ∀ snapshot ∈ later.seen, ∀ old, snapshot.action? actionId = some old →
        old.Precedes updated := by
  obtain ⟨known, applied, seen⟩ := stepped
  have current : ∀ snapshot ∈ trace.now :: trace.seen, ∀ old,
      snapshot.action? actionId = some old → old.Precedes stored := by
    intro snapshot member old lookup
    rcases List.mem_cons.mp member with rfl | earlier
    · rw [Option.mem_unique lookup found]
      exact .refl stored
    · exact read snapshot earlier old lookup
  obtain ⟨updated, lookup, changed⟩ := operation.apply_step found history
    (fun snapshot used => current snapshot (known snapshot used)) applied
  refine ⟨updated, lookup, changed, ?_⟩
  rw [seen]
  intro snapshot member old oldLookup
  exact (current snapshot member old oldLookup).trans changed.precedes

theorem DeliveryInvariant.reachable (reached : (deliveryMachine actionId).Reachable trace) :
    DeliveryInvariant actionId trace := by
  refine reached.invariant (DeliveryInvariant actionId) ?_ ?_
  · rintro trace ⟨unseen, stored, found, fresh, unattempted⟩
    exact ⟨stored, found, .empty unattempted fresh, by simp [unseen]⟩
  · rintro trace operation later ⟨stored, found, history, read⟩ stepped
    obtain ⟨updated, lookup, changed, reads⟩ := DeliveryInvariant.step found history read stepped
    exact ⟨updated, lookup, changed.history, reads⟩

theorem DeliveryInvariant.frozen (run : (deliveryMachine actionId).Run trace later)
    (found : trace.now.action? actionId = some stored) (history : stored.DeliveryHistory)
    (read : ∀ snapshot ∈ trace.seen, ∀ old, snapshot.action? actionId = some old →
      old.Precedes stored)
    (terminal : stored.action.state.terminal) : later.now.action? actionId = some stored := by
  have kept := run.preserves (fun trace =>
      trace.now.action? actionId = some stored ∧ ∀ snapshot ∈ trace.seen, ∀ old,
        snapshot.action? actionId = some old → old.Precedes stored) ⟨found, read⟩ (by
    rintro trace operation later ⟨found, read⟩ _ stepped
    obtain ⟨updated, lookup, changed, reads⟩ := DeliveryInvariant.step found history read stepped
    obtain rfl := changed.terminal terminal
    exact ⟨lookup, reads⟩)
  exact kept.1

theorem DeliveryInvariant.startsCall (found : trace.now.action? actionId = some stored)
    (history : stored.DeliveryHistory)
    (stepped : (deliveryMachine actionId).step trace operation later)
    (starts : operation.startsCall) :
    ∀ attempt ∈ stored.attempts, attempt.started → attempt.conclusion = some .providerRetry := by
  obtain ⟨_, applied, _⟩ := stepped
  cases operation with
  | markCallStarted snapshot expectedVersion authority leaseOwner attemptNumber startedAt
      callDeadlineAt stepTransition =>
      obtain ⟨_, _, same, lease, _, _, _, _, _, present, held, _, _, _, _, _, uncalled, _⟩ :=
        Database.markCallStarted_effect applied
      obtain rfl : stored = same := Option.mem_unique found present
      intro attempt member started
      rcases history.settled_or_last member with released | last
      · exact StoredAction.releasedAttempt_provider_retry released started
      · have mirrored := (history.current lease held attempt member last).call
        rw [DispatchAttempt.started, mirrored, uncalled] at started
        cases started
  | _ => cases starts

/-- Over every run of any length and every interleaving of the repository
operations, delivery is at most once: the stored attempts are well formed, a
further call follows only provider retries, and a terminal action is frozen. -/
theorem at_most_once_delivery (reached : (deliveryMachine actionId).Reachable trace) :
    ∃ stored, trace.now.action? actionId = some stored ∧ AtMostOnceDelivery stored ∧
      (∀ operation later, (deliveryMachine actionId).step trace operation later →
        operation.startsCall → ∀ attempt ∈ stored.attempts, attempt.started →
          attempt.conclusion = some .providerRetry) ∧
      (stored.action.state.terminal → ∀ later, (deliveryMachine actionId).Run trace later →
        later.now.action? actionId = some stored) := by
  obtain ⟨stored, found, history, read⟩ := DeliveryInvariant.reachable reached
  exact ⟨stored, found, history.atMostOnce,
    fun _ _ stepped starts => DeliveryInvariant.startsCall found history stepped starts,
    fun terminal _ run => DeliveryInvariant.frozen run found history read terminal⟩

namespace DeliveryTrace

/-- Run operations that each read the state they update. -/
def run (actionId : String) : List (Database → DeliveryOperation) → DeliveryTrace →
    Option DeliveryTrace
  | [], trace => some trace
  | make :: rest, trace => do
      let now ← (make trace.now).apply actionId trace.now
      run actionId rest { now, seen := trace.now :: trace.seen }

theorem run_reachable {operations : List (Database → DeliveryOperation)}
    (current : ∀ make ∈ operations, ∀ now snapshot, (make now).snapshot? = some snapshot →
      snapshot = now)
    (reached : (deliveryMachine actionId).Reachable trace)
    (ran : trace.run actionId operations = some later) :
    (deliveryMachine actionId).Reachable later := by
  induction operations generalizing trace with
  | nil =>
      cases ran
      exact reached
  | cons make rest ih =>
      simp only [run, bind, Option.bind_eq_some_iff] at ran
      obtain ⟨now, applied, ran⟩ := ran
      refine ih (fun make member => current make (by simp [member])) ?_ ran
      refine reached.next (make trace.now) ⟨?_, applied, rfl⟩
      intro snapshot read
      simp [current make (by simp) _ _ read]

end DeliveryTrace

namespace ApprovedWrite

def rateLimit : RateLimitPolicySnapshot :=
  { key := "template", maxCalls := 10, windowSeconds := 60 }

def step : RunStep where
  key := "publish"
  effect := .write
  connectorFamily := "email"
  dependencyKeys := []
  planHash := "plan"
  requestSchemaId := none
  dataClassification := "internal"
  timeoutSeconds := some 30
  runtimePolicy := {
    operationKey := "publish"
    attemptKind := .tool
    maxAttempts := 1
    backoff := .none
    stepSeconds := 30
    rateLimit }
  state := .ready
  updatedAt := 1
  version := 3
  terminalReasonCode := none

def contract (support : IdempotencySupport) : DeliveryContract where
  runId := "run"
  stepId := "step"
  stepKey := "publish"
  authorizationSetId := "set"
  planHash := "plan"
  proposalRevision := 1
  actionHash := "hash"
  capabilityId := "send"
  bindingId := "binding"
  idempotencyKey := "key"
  idempotencySupport := support
  timeoutSeconds := 30
  deliveryAttemptLimit := 2

def reservation : ActionReservationSnapshot where
  reservationId := "reservation"
  authorizationSetId := "set"
  approvalRequestId := "request"
  approvalDecisionId := "decision"
  actionHash := "hash"
  capabilityId := "send"
  bindingId := "binding"
  idempotencyKey := "key"
  reservedAt := 1

def action (support : IdempotencySupport) : ExternalAction where
  contract := contract support
  state := .dispatchReserved
  createdAt := 0
  updatedAt := 1
  version := 4
  deliveryAttemptCount := 0
  reservation := some reservation
  lease := none
  call := none
  result := none
  terminalReasonCode := none
  supersession := none
  isValid := by cases support <;> decide

def member : AuthorizationSetMember where
  actionId := "action"
  actionHash := "hash"
  stepId := "step"
  stepKey := "publish"
  release := some {
    approvalRequestId := "request"
    approvalDecisionId := "decision"
    approvalUseId := "use"
    reservationId := "reservation"
    releasedStepVersion := 3
    releasedAt := 1 }

def authorizationSet : AuthorizationSet where
  planHash := "plan"
  proposalRevision := 1
  membershipHash := "members"
  members := [member]
  status := .released
  version := 2
  openedAt := 0
  updatedAt := 1
  release := some { releaseHash := "release", releasedAt := 1, releasedRunVersion := 5 }
  terminalReasonCode := some "approval_barrier_satisfied"

def head : AuthorizationSetHead where
  currentSetId := "set"
  planHash := "plan"
  proposalRevision := 1
  membershipHash := "members"
  version := 1
  updatedAt := 0

def request : ApprovalRequest where
  generation := 1
  actionId := "action"
  actionHash := "hash"
  authorizationSetId := "set"
  stepId := "step"
  stepKey := "publish"
  expiresAt := 1000
  status := .consumed
  decisionId := some "decision"
  version := 3
  updatedAt := 1
  replacementRequestId := none

def use : ApprovalUse where
  requestId := "request"
  decisionId := "decision"
  actionId := "action"
  actionHash := "hash"
  authorizationSetId := "set"
  stepId := "step"
  stepKey := "publish"
  reservationId := "reservation"
  usedAt := 1

def control : RunExecutionControl where
  policyHash := "plan"
  runTimeoutSeconds := 600
  maxModelCalls := 0
  maxToolCalls := 5
  modelCalls := 0
  toolCalls := 0
  window := some { startedAt := 1, deadlineAt := 1 + seconds 600 }
  cancelRequest := none
  createdAt := 0
  updatedAt := 1
  version := 2

/-- The smallest run in which an external action may be dispatched: one WRITE
step whose approval was released, its reserved action and a started control. -/
def database (support : IdempotencySupport) : Database where
  runId := "run"
  workMode := .mockExecution
  run := {
    state := .executing
    version := 5
    createdAt := 0
    updatedAt := 1
    approvalRequired := some true
    terminalReasonCode := none }
  runTransitions := []
  steps := { entries := [("step", step)], nodup := by decide }
  stepTransitions := []
  operations := .empty
  control := some control
  actions :=
    { entries := [("action", { action := action support, attempts := [] })], nodup := by simp }
  receipts := .empty
  authorizationHead := some head
  authorizationSets := { entries := [("set", authorizationSet)], nodup := by simp }
  approvalRequests := { entries := [("request", request)], nodup := by simp }
  approvalUses := { entries := [("use", use)], nodup := by simp }
  rateWindows := .empty
  audits := []

def authority : ReleaseAuthority where
  authorizationSetId := "set"
  membershipHash := "members"
  releaseHash := "release"
  authorizationSetVersion := 2
  headVersion := 1
  runId := "run"
  releasedRunVersion := 5
  actionId := "action"
  actionHash := "hash"
  stepId := "step"
  stepKey := "publish"
  releasedStepVersion := 3
  stepState := .ready
  stepVersion := 3
  callMode := .firstCall
  priorStartedAttemptNumber := none
  approvalRequestId := "request"
  approvalDecisionId := "decision"
  approvalUseId := "use"
  reservationId := "reservation"

/-- The authority of a second call after the first one was given up for a retry. -/
def retryAuthority : ReleaseAuthority :=
  { authority with
    stepState := .executing
    stepVersion := 4
    callMode := .providerRetry
    priorStartedAttemptNumber := some 1 }

/-- A first call that times out, its release for a retry, and the second call. -/
def retriedDelivery : List (Database → DeliveryOperation) :=
  [fun now => .claimReserved now 4 authority "first" 10 (seconds 10),
   fun now => .markCallStarted now 5 authority "first" 1 11 (seconds 20)
     (transitionStep "step" step .startReservedWrite .none 11).toOption,
   fun _ => .releaseStaleForRetry 6 1 (seconds 20) .providerRetry,
   fun now => .claimReserved now 7 retryAuthority "second" (seconds 21) (seconds 31),
   fun now => .markCallStarted now 8 retryAuthority "second" 2 (seconds 22) (seconds 30) none]

def start : DeliveryTrace := { now := database .required, seen := [] }

theorem start_reachable : (deliveryMachine "action").Reachable start :=
  .start ⟨rfl, _, rfl, rfl, rfl⟩

theorem retriedDelivery_started :
    (((start.run "action" retriedDelivery).bind (·.now.action? "action")).map
      fun stored => stored.attempts.map (·.started)) = some [true, true] := by decide

theorem at_most_once_delivery_of_retry :
    ∃ trace, start.run "action" retriedDelivery = some trace ∧
      ∃ stored, trace.now.action? "action" = some stored ∧ AtMostOnceDelivery stored ∧
        stored.attempts.map (·.started) = [true, true] := by
  have started := retriedDelivery_started
  simp only [Option.map_eq_some_iff, Option.bind_eq_some_iff] at started
  obtain ⟨stored, ⟨trace, ran, found⟩, called⟩ := started
  have reached : (deliveryMachine "action").Reachable trace := by
    refine DeliveryTrace.run_reachable ?_ start_reachable ran
    simp [retriedDelivery, DeliveryOperation.snapshot?]
  obtain ⟨same, present, once, _⟩ := at_most_once_delivery reached
  obtain rfl : stored = same := Option.mem_unique found present
  exact ⟨trace, ran, stored, found, once, called⟩

end ApprovedWrite

end MarketingAgents
