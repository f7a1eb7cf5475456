import MarketingAgents.Persistence.DeliveryHistory
import MarketingAgents.Services.TerminalRuns

namespace MarketingAgents

open Library

/-! # What the attempts of an action say about its outcome

A started call ends with the answer of the provider, with an unknown outcome, or
with a release for another call.  Recovery, cancellation and cleanup only look at
the row of the action, which a release has cleared.
-/

namespace StoredAction

variable (stored : StoredAction)

/-- How the current attempt of an action stands once its call was started. -/
def Answers (attempt : DispatchAttempt) : Prop :=
  match stored.action.state with
  | .dispatching => attempt.completion = none ∧ stored.action.call ≠ none
  | .succeeded => attempt.conclusion = some .succeeded
  | .failed => attempt.conclusion = some .failed
  | .outcomeUnknown => attempt.conclusion = some .outcomeUnknown
  | _ => False

/-- Every started call but the current one was given up for another call. -/
structure DeliveryAccount : Prop where
  numbered : ∀ attempt ∈ stored.attempts, attempt.attemptNumber ≤ stored.action.deliveryAttemptCount
  undelivered : stored.action.state ∈ [.awaitingApproval, .approved] → stored.attempts = []
  unfinished : stored.action.state = .dispatching → ∀ attempt ∈ stored.attempts,
    attempt.attemptNumber = stored.action.deliveryAttemptCount → attempt.completion = none
  started : ∀ attempt ∈ stored.attempts, attempt.started →
    attempt.conclusion = some .providerRetry ∨
      attempt.attemptNumber = stored.action.deliveryAttemptCount ∧ stored.Answers attempt

end StoredAction

variable {db after : Database} {commit : Commit} {stepId actionId : String}
variable {stored later : StoredAction}

namespace StoredAction.DeliveryAccount

theorem of_unattempted (unattempted : stored.attempts = []) : stored.DeliveryAccount where
  numbered := by simp [unattempted]
  undelivered := fun _ => unattempted
  unfinished := by simp [unattempted]
  started := by simp [unattempted]

theorem called (account : stored.DeliveryAccount)
    (call : CallStarted db actionId authority stored later) : later.DeliveryAccount := by
  obtain ⟨lease, started, updatedAt, number, row, attempts⟩ := call.action
  have count : later.action.deliveryAttemptCount = stored.action.deliveryAttemptCount + 1 := by
    rw [row]
    exact number
  refine { numbered := ?_, undelivered := ?_, unfinished := ?_, started := ?_ }
  · intro attempt member
    rw [attempts] at member
    rcases List.mem_append.mp member with old | new
    · have bound := account.numbered attempt old
      omega
    · obtain rfl := List.mem_singleton.mp new
      exact Nat.le_of_eq (number.trans count.symm)
  · simp [call.state]
  · intro _ attempt member last
    rw [attempts] at member
    rcases List.mem_append.mp member with old | new
    · have bound := account.numbered attempt old
      omega
    · obtain rfl := List.mem_singleton.mp new
      rfl
  · intro attempt member called
    rw [attempts] at member
    rcases List.mem_append.mp member with old | new
    · rcases account.started attempt old called with retried | ⟨_, answers⟩
      · exact .inl retried
      · simp [Answers, call.reserved] at answers
    · obtain rfl := List.mem_singleton.mp new
      refine .inr ⟨number.trans count.symm, ?_⟩
      rw [Answers, call.state, row]
      exact ⟨rfl, by simp⟩

/-- The conclusion of the current attempt is the one thing that a settled row leaves to check. -/
theorem settled {state : ExternalActionState} {number : Nat} (account : stored.DeliveryAccount)
    (dispatching : stored.action.state = .dispatching)
    (current : number = stored.action.deliveryAttemptCount) (target : later.action.state = state)
    (count : later.action.deliveryAttemptCount = stored.action.deliveryAttemptCount)
    (attempts : later.attempts = stored.concludeAttempt number completion)
    (ended : state ∉ [.awaitingApproval, .approved, .dispatching])
    (answered : stored.action.call ≠ none → ∀ attempt,
      attempt.conclusion = some completion.conclusion →
      attempt.conclusion = some .providerRetry ∨ later.Answers attempt) :
        later.DeliveryAccount := by
  have source : ∀ {attempt}, attempt ∈ later.attempts → ∃ before ∈ stored.attempts,
      attempt = if before.attemptNumber = number then { before with completion := some completion }
          else before := by
    intro attempt member
    rw [attempts, concludeAttempt] at member
    exact mem_updateAttempt.mp member
  simp only [List.mem_cons, List.not_mem_nil, or_false, not_or] at ended
  refine {
    numbered := ?_
    undelivered := fun waits => ?_
    unfinished := fun dispatches => absurd (target.symm.trans dispatches) ended.2.2
    started := ?_ }
  · intro attempt member
    obtain ⟨before, listed, rfl⟩ := source member
    rw [count]
    split
    · exact account.numbered before listed
    · exact account.numbered before listed
  · simp only [target, List.mem_cons, List.not_mem_nil, or_false] at waits
    exact (waits.elim ended.1 ended.2.1).elim
  · intro attempt member called
    obtain ⟨before, listed, rfl⟩ := source member
    split at called
    · rename_i selected
      rw [if_pos selected]
      rcases account.started before listed called with retried | ⟨_, answers⟩
      · have undecided := account.unfinished dispatching before listed (selected.trans current)
        simp [DispatchAttempt.conclusion, undecided] at retried
      · rw [Answers, dispatching] at answers
        rcases answered answers.2 { before with completion := some completion } rfl with retried |
          ends
        · exact .inl retried
        · exact .inr ⟨selected.trans (current.trans count.symm), ends⟩
    · rename_i differs
      rw [if_neg differs]
      rcases account.started before listed called with retried | ⟨last, _⟩
      · exact .inl retried
      · exact absurd (last.trans current.symm) differs

theorem lease_current (held : stored.action.lease = some lease) :
    lease.attemptNumber = stored.action.deliveryAttemptCount :=
  (stored.action.lease_attempt held).1

theorem retried (account : stored.DeliveryAccount)
    (released : ExternalActionDispatcher.ActionReleased db actionId stored later) :
    later.DeliveryAccount := by
  obtain ⟨occurredAt, row⟩ := released.row
  obtain ⟨lease, release, completion, held, conclusion, started, attempts⟩ := released.attempts
  refine account.settled released.dispatching (lease_current held) released.state
    (by rw [row]; rfl) attempts (by simp) ?_
  intro called attempt concluded
  obtain rfl := started.mpr called
  left
  rw [concluded, conclusion]
  rfl

theorem concluded (account : stored.DeliveryAccount)
    (change : stored.Concluded outcome later) : later.DeliveryAccount := by
  obtain ⟨occurredAt, result, reasonCode, row⟩ := change.row
  obtain ⟨lease, completion, held, conclusion, attempts⟩ := change.attempts
  refine account.settled change.dispatching (lease_current held) change.state
    (by rw [row]; rfl) attempts ?_ ?_
  · have final := outcome.actionState_final
    generalize outcome.actionState = state at final
    cases state <;> simp at final ⊢
  · intro called attempt concluded
    have answered : outcome ≠ .preCallExhausted :=
      fun exhausted => called (change.called.mpr exhausted)
    right
    rw [conclusion] at concluded
    rw [Answers, change.state]
    cases outcome with
    | preCallExhausted => exact absurd rfl answered
    | succeeded | failed | outcomeUnknown => exact concluded

theorem cancelled (account : stored.DeliveryAccount) (change : stored.CancelledPreCall later) :
    later.DeliveryAccount := by
  obtain ⟨occurredAt, reasonCode, row⟩ := change.row
  have count : later.action.deliveryAttemptCount = stored.action.deliveryAttemptCount := by
    rw [row]
    rfl
  have givenUp : ∀ attempt ∈ stored.attempts, attempt.started →
      attempt.conclusion = some .providerRetry := by
    intro attempt member called
    rcases account.started attempt member called with retried | ⟨_, answers⟩
    · exact retried
    · have released := change.released
      simp only [List.mem_cons, List.not_mem_nil, or_false] at released
      rcases released with reserved | dispatching
      · simp [Answers, reserved] at answers
      · rw [Answers, dispatching] at answers
        exact absurd change.uncalled answers.2
  have source : ∀ attempt ∈ later.attempts, ∃ before ∈ stored.attempts,
      attempt.attemptNumber = before.attemptNumber ∧ (attempt.started → attempt = before) := by
    intro attempt member
    rcases change.attempts with same | ⟨_, _, _, attempts⟩
    · exact ⟨attempt, same ▸ member, rfl, fun _ => rfl⟩
    · rw [attempts] at member
      obtain ⟨before, listed, rfl⟩ := List.mem_map.mp member
      refine ⟨before, listed, ?_⟩
      split
      · rename_i unstarted
        refine ⟨rfl, fun called => ?_⟩
        simp only [unstartedAttempt, Bool.and_eq_true, decide_eq_true_eq] at unstarted
        simp [DispatchAttempt.started, unstarted.1.2] at called
      · exact ⟨rfl, fun _ => rfl⟩
  refine { numbered := ?_, undelivered := ?_, unfinished := ?_, started := ?_ }
  · intro attempt member
    obtain ⟨before, listed, number, _⟩ := source attempt member
    rw [number, count]
    exact account.numbered before listed
  · simp [change.state]
  · simp [change.state]
  · intro attempt member called
    obtain ⟨before, listed, _, same⟩ := source attempt member
    rw [same called]
    exact .inl (givenUp before listed (same called ▸ called))

theorem next (account : stored.DeliveryAccount)
    (event : ActionEvent db commit actionId stored later) :
    later.DeliveryAccount := by
  cases event with
  | kept => exact account
  | reconsidered changed =>
      exact .of_unattempted (changed.attempts.trans (account.undelivered changed.unreleased))
  | released _ before reserved =>
      have unattempted : stored.attempts = [] := by
        rcases before with rfl | changed
        · exact account.undelivered (by simp [reserved.approved])
        · exact account.undelivered changed.unreleased
      rcases before with rfl | changed
      · exact .of_unattempted (reserved.attempts.trans unattempted)
      · exact .of_unattempted (reserved.attempts.trans (changed.attempts.trans unattempted))
  | called _ call => exact account.called call
  | retried _ released => exact account.retried released
  | concluded _ change => exact account.concluded change
  | cancelled _ change => exact account.cancelled change

end StoredAction.DeliveryAccount

theorem advanceSteps_runTransitions {occurredAt : Time} {results : List StepTransitionResult}
    (advanced : advanceSteps run command context occurredAt code message entries db =
      .ok (results, after)) :
    after.runTransitions = db.runTransitions := by
  induction entries generalizing db results with
  | nil => cases advanced; rfl
  | cons entry rest ih =>
      simp only [advanceSteps, bind_ok, pure_ok, Prod.exists, Prod.mk.injEq] at advanced
      obtain ⟨_, moved, first, _, _, remaining, _, rfl⟩ := advanced
      rw [ih remaining]
      simp only [Database.advanceStep, bind_ok, requireSome_ok, pure_ok, Prod.mk.injEq] at first
      obtain ⟨_, _, _, applied, _, rfl⟩ := first
      simp only [Database.applyStepTransition, bind, Option.bind_eq_some_iff, Option.pure_def,
        Option.some.injEq] at applied
      obtain ⟨_, _, _, _, _, _, _, _, rfl⟩ := applied
      rfl

theorem cancelUnstarted_runTransitions {occurredAt : Time}
    (cancelled : cancelUnstarted planHash occurredAt reasonCode code message entries db =
      .ok after) :
    after.runTransitions = db.runTransitions := by
  induction entries generalizing db with
  | nil => cases cancelled; rfl
  | cons entry rest ih =>
      simp only [cancelUnstarted, bind_ok, requireSome_ok] at cancelled
      obtain ⟨first, one, remaining⟩ := cancelled
      rw [ih remaining]
      obtain ⟨_, _, _, _, _, _, _, _, _, _, _, _, ⟨_, rfl⟩ | ⟨_, _, rfl⟩⟩ :=
        Database.cancelUnstartedAfterRelease_effect one
      · rfl
      · rfl

/-- How many actions of an authorization set are in a state. -/
def Database.effectCount (db : Database) (set : AuthorizationSet)
    (state : ExternalActionState) : Nat :=
  set.members.countP fun member => (db.action? member.actionId).any (·.action.state = state)

namespace ApprovalBoundaryService

theorem SnapshotOf.effectCount (loaded : SnapshotOf db snapshot) (state : ExternalActionState) :
    ApprovalBoundaryService.effectCount snapshot state = db.effectCount snapshot.set state := by
  rw [ApprovalBoundaryService.effectCount, Database.effectCount, ← loaded.members, List.countP_map]
  apply List.countP_congr
  intro row listed
  simp [(loaded.loaded row listed).action]

/-- The cancellation of an executing run counts the effects of its set as they are. -/
theorem cancelOnce_counts {occurredAt : Time}
    (cancelled : cancelOnce db actorDigest occurredAt = .ok after)
    (executing : db.run.state = .executing) :
    ∃ head set transition, db.currentAuthorizationSet = some (head, set) ∧
      after.runTransitions = db.runTransitions ++ [transition] ∧ transition.newState = .cancelled ∧
      transition.completedEffectCount = db.effectCount set .succeeded ∧
      transition.outcomeUnknownEffectCount = db.effectCount set .outcomeUnknown := by
  simp only [cancelOnce, bind_ok] at cancelled
  obtain ⟨snapshot, loads, cancelled⟩ := cancelled
  have loaded := loadCurrent_effect loads
  split at cancelled
  · simp only [cancelReleased, bind_ok, require_ok, requireSome_ok, pure_ok,
      Prod.exists] at cancelled
    obtain ⟨_, _, _, _, _, _, _, _, fenced, fences, cancelledDb, cancels, _, _, _, _, _, _, _,
      failedDb, fails, _, queuedDb, queues, result, after', runAdvanced, rfl⟩ := cancelled
    obtain ⟨_, _, _, _, _, rfl⟩ := Database.requestCancel_continues fences
    obtain ⟨_, rfl⟩ := Database.advanceRun_effect runAdvanced
    have swept := cancelUnstarted_runTransitions cancels
    have before : queuedDb.runTransitions = db.runTransitions :=
      (advanceSteps_runTransitions queues).trans ((advanceSteps_runTransitions fails).trans swept)
    simp only [Database.advanceRun, transitionRun, nextRunState, bind_ok, require_ok,
      requireSome_ok, pure_ok, Prod.exists, Prod.mk.injEq] at runAdvanced
    obtain ⟨_, ⟨_, _, _, _, newState, _, _, next, rfl⟩, _, _, rfl, _⟩ := runAdvanced
    refine ⟨snapshot.head, snapshot.set, _, loaded.current, by rw [← before]; rfl, ?_, ?_, ?_⟩
    · split at next
      · cases next
      · simp only [Except.ok.injEq, Prod.mk.injEq] at next
        exact next.1.symm
    · exact loaded.effectCount .succeeded
    · exact loaded.effectCount .outcomeUnknown
  · simp only [bind_ok, require_ok] at cancelled
    obtain ⟨_, waiting, _⟩ := cancelled
    rw [loaded.run, executing] at waiting
    cases waiting
  · simp [MarketingAgents.reject] at cancelled

end ApprovalBoundaryService

/-- The attempts of every action account for its started calls. -/
def DeliveriesAccounted (db : Database) : Prop :=
  ∀ actionId stored, db.action? actionId = some stored → stored.DeliveryAccount

theorem DeliveriesAccounted.next (governed : Governed db) (accounted : DeliveriesAccounted db)
    (committed : Committed db commit after) : DeliveriesAccounted after := by
  intro actionId later lookup
  by_cases established : commit ≠ .planPersisted
  · obtain ⟨stored, found, _⟩ := (committed.samePlan established).actions.source lookup
    obtain ⟨again, same, event⟩ := committed.actionEvent established found
    obtain rfl := Option.mem_unique lookup same
    exact (accounted actionId stored found).next event
  · rw [not_not] at established
    subst established
    cases committed with
    | planPersisted change =>
        have undecided := governed.sound.undecided (by simp [change.validated])
        exact .of_unattempted
          (change.action_fresh (governed.sound.binding.unplanned undecided).2.2.1 lookup).2

theorem DeliveriesAccounted.reachable (reached : serviceMachine.Reachable db) :
    DeliveriesAccounted db := by
  have accounted : Governed db ∧ DeliveriesAccounted db := by
    refine reached.invariant (fun db => Governed db ∧ DeliveriesAccounted db) ?_ ?_
    · intro db received
      exact ⟨.of_received received, fun actionId stored found => by
        simp [Database.action?, received.actions] at found⟩
    · rintro db transaction after ⟨governed, accounted⟩ stepped
      obtain ⟨commit, _, committed⟩ := governed.sound.commits stepped
      exact ⟨governed.next stepped, accounted.next governed committed⟩
  exact accounted.2

/-- An action that ended as cancelled or failed has no started call but those that
the provider refused and those that were given up for another call.  Every other
started call leads to a success or to an unknown outcome, and a cancellation records
the counts of the state that it has read. -/
theorem possible_deliveries_answered (reached : serviceMachine.Reachable db) :
    (∀ actionId stored, db.action? actionId = some stored →
      (stored.action.state ∈ [.cancelled, .failed] → ∀ attempt ∈ stored.attempts, attempt.started →
        attempt.conclusion ∈ [some .failed, some .providerRetry]) ∧
      ∀ attempt ∈ stored.attempts, attempt.started →
        attempt.conclusion ∉ [some .failed, some .providerRetry] →
        stored.action.state ∈ [.dispatching, .succeeded, .outcomeUnknown]) ∧
    ∀ actorDigest occurredAt after, db.run.state = .executing →
      ApprovalBoundaryService.cancelOnce db actorDigest occurredAt = .ok after →
      ∃ head set transition, db.currentAuthorizationSet = some (head, set) ∧
        after.runTransitions = db.runTransitions ++ [transition] ∧
        transition.newState = .cancelled ∧
        transition.completedEffectCount = db.effectCount set .succeeded ∧
        transition.outcomeUnknownEffectCount = db.effectCount set .outcomeUnknown := by
  refine ⟨fun actionId stored found => ?_, fun actorDigest occurredAt after executing cancelled =>
    ApprovalBoundaryService.cancelOnce_counts cancelled executing⟩
  have account := DeliveriesAccounted.reachable reached actionId stored found
  have answered : ∀ attempt ∈ stored.attempts, attempt.started →
      attempt.conclusion ∈ [some .failed, some .providerRetry] ∨
        stored.action.state ∈ [.dispatching, .succeeded, .outcomeUnknown] := by
    intro attempt member called
    rcases account.started attempt member called with retried | ⟨_, answers⟩
    · exact .inl (by simp [retried])
    · unfold StoredAction.Answers at answers
      split at answers
      · simp [*]
      · simp [*]
      · exact .inl (by simp [answers])
      · simp [*]
      · exact answers.elim
  constructor
  · intro ended attempt member called
    refine (answered attempt member called).resolve_right fun delivered => ?_
    generalize stored.action.state = state at ended delivered
    cases state <;> simp at ended delivered
  · intro attempt member called unanswered
    exact (answered attempt member called).resolve_left unanswered

namespace PlannedWrite

def step : RunStep := { ApprovedWrite.step with
  state := .pending
  version := 1 }

def proposed : ExternalAction where
  contract := ApprovedWrite.contract .required
  state := .awaitingApproval
  createdAt := 0
  updatedAt := 1
  version := 1
  deliveryAttemptCount := 0
  reservation := none
  lease := none
  call := none
  result := none
  terminalReasonCode := none
  supersession := none
  isValid := by decide

def epoch : ApprovalEpoch where
  setId := "set"
  head := ApprovedWrite.head
  set := { ApprovedWrite.authorizationSet with
    members := [{ ApprovedWrite.member with release := none }]
    status := .open
    version := 1
    release := none
    terminalReasonCode := none }
  actions := ⟨[("action", { action := proposed, attempts := [] })], by simp⟩
  requests := ⟨[("request", { ApprovedWrite.request with
    expiresAt := seconds 1000
    status := .pending
    decisionId := none
    version := 1 })], by simp⟩

def plan : SealedPlan where
  planHash := "plan"
  steps := ⟨[("step", step)], by simp⟩
  operations := .empty
  control := { ApprovedWrite.control with
    window := none
    version := 1 }
  epoch := some epoch
  nonempty := by simp
  stepsFresh := by decide
  keysDistinct := by decide
  dependenciesPlanned := by decide
  operationsBound := by decide
  controlFresh := by decide
  readOnly := by simp
  approvalBound := by decide

def dispatcher : Dispatcher where
  leaseDuration := seconds 60
  authorize := fun _ _ => .ok ()
  contractFor := fun _ => .ok ()
  inputWithinBudget := fun _ _ => .ok ()
  projectOutput := fun actionId _ => actionId

/-- The action as a worker reads it. -/
def snapshot (db : Database) : ExternalAction :=
  ((db.action? "action").map (·.action)).getD proposed

/-- The plan is approved, and the first call of its action times out. -/
def timesOut : List (Database → ServiceTransaction) := [
  fun _ => .advanceRun 1 .markValidated .none 1,
  fun _ => .persistPlan plan 2 2 2,
  fun _ => .decideApproval "request" "decision" true "release" (fun _ => ⟨"use", "reservation"⟩) 3,
  fun _ => .startWrite dispatcher "action" "first" 4,
  fun db => .recoverWrite "action" (snapshot db) (seconds 100)]

def cancelled : Option Database := ServiceTransaction.run? (fun _ _ => true)
  (timesOut ++ [fun _ => .cancelWritePlan "operator" (seconds 101)]) PlannedRead.admitted

/-- The action is cancelled although its first call was never answered, and the
cancellation counts no unknown outcome. -/
theorem possible_delivery_cancelled : ∃ db stored attempt transition, cancelled = some db ∧
    serviceMachine.Reachable db ∧ db.run.state = .cancelled ∧ db.action? "action" = some stored ∧
    stored.action.state = .cancelled ∧ attempt ∈ stored.attempts ∧ attempt.started ∧
    attempt.conclusion = some .providerRetry ∧ db.runTransitions.getLast? = some transition ∧
    transition.outcomeUnknownEffectCount = 0 := by
  have cancels : cancelled.any (fun db => db.run.state = .cancelled &&
      ((db.action? "action").any fun stored => stored.action.state = .cancelled &&
        stored.attempts.any fun attempt => attempt.started &&
          attempt.conclusion = some .providerRetry) &&
      db.runTransitions.getLast?.any fun transition => transition.outcomeUnknownEffectCount = 0) =
          true := by
    decide +kernel
  obtain ⟨db, ran, rows⟩ := (Option.any_eq_true _ _).mp cancels
  simp only [Bool.and_eq_true, Option.any_eq_true, List.any_eq_true, decide_eq_true_eq] at rows
  obtain ⟨⟨ended, stored, found, state, attempt, member, called, conclusion⟩, transition, last,
    count⟩ := rows
  have start : serviceMachine.ReachableWhere (fun _ _ => true = true) PlannedRead.admitted :=
    .start PlannedRead.admitted_received
  exact ⟨db, stored, attempt, transition, ran,
    (ServiceTransaction.run?_reachable start ran).reachable, ended,
    found, state, member, called, conclusion, last, count⟩

theorem possible_deliveries_answered_cancelled : ∃ db stored, cancelled = some db ∧
    db.action? "action" = some stored ∧ stored.action.state = .cancelled ∧
    ∀ attempt ∈ stored.attempts, attempt.started →
      attempt.conclusion ∈ [some .failed, some .providerRetry] := by
  have cancels : cancelled.any (fun db => (db.action? "action").any fun stored =>
      stored.action.state = .cancelled) = true := by decide +kernel
  obtain ⟨db, ran, rows⟩ := (Option.any_eq_true _ _).mp cancels
  obtain ⟨stored, found, state⟩ := (Option.any_eq_true _ _).mp rows
  rw [decide_eq_true_eq] at state
  have start : serviceMachine.ReachableWhere (fun _ _ => true = true) PlannedRead.admitted :=
    .start PlannedRead.admitted_received
  have reached := (ServiceTransaction.run?_reachable start ran).reachable
  exact ⟨db, stored, ran, found, state,
    ((possible_deliveries_answered reached).1 "action" stored found).1 (by simp [state])⟩

end PlannedWrite

end MarketingAgents
