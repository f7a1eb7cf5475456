import MarketingAgents.Library.Machine
import MarketingAgents.Persistence.DeliveryHistory

namespace MarketingAgents

open Library

/-! # At-most-once external delivery

Workers run the repository operations on one action in any order.  Each may
work from a read that is older than the row it updates, and everything else in
the database may change at any time.
-/

/-- One committed operation of some worker, with the state it had read before where it reads one. -/
inductive DeliveryOperation where
  | claimReserved (snapshot : Database) (expectedVersion : Nat) (authority : ReleaseAuthority)
      (leaseOwner : String) (claimedAt leaseExpiresAt : Time)
  | markCallStarted (snapshot : Database) (expectedVersion : Nat) (authority : ReleaseAuthority)
      (leaseOwner : String) (attemptNumber : Nat) (startedAt callDeadlineAt : Time)
      (stepTransition : Option StepTransitionResult)
  | completeSucceeded (expectedVersion : Nat) (leaseOwner : String) (attemptNumber : Nat)
      (result : ExternalActionResultSnapshot)
  | completeFailed (expectedVersion : Nat) (leaseOwner : String) (attemptNumber : Nat)
      (reasonCode : String) (occurredAt : Time)
  | markOutcomeUnknown (expectedVersion : Nat) (leaseOwner : String) (attemptNumber : Nat)
      (reasonCode : String) (occurredAt : Time)
  | cancelUnstartedAfterRelease (snapshot : Database) (runId planHash : String)
      (expectedVersion : Nat) (occurredAt : Time) (reasonCode : String)
  | releaseStaleForRetry (expectedVersion attemptNumber : Nat) (occurredAt : Time)
      (release : RetryRelease)
  | failExhaustedStalePreCall (expectedVersion attemptNumber : Nat) (occurredAt : Time)
      (reasonCode : String)
  | elsewhere (after : Database)

namespace DeliveryOperation

def snapshot? : DeliveryOperation → Option Database
  | claimReserved snapshot _ _ _ _ _ => some snapshot
  | markCallStarted snapshot _ _ _ _ _ _ _ => some snapshot
  | cancelUnstartedAfterRelease snapshot _ _ _ _ _ => some snapshot
  | _ => none

def startsCall : DeliveryOperation → Bool
  | markCallStarted .. => true
  | _ => false

def apply (actionId : String) (now : Database) : DeliveryOperation → Option Database
  | claimReserved snapshot expectedVersion authority leaseOwner claimedAt leaseExpiresAt =>
      now.claimReserved (snapshot.action? actionId) actionId expectedVersion authority leaseOwner
        claimedAt leaseExpiresAt
  | markCallStarted snapshot expectedVersion authority leaseOwner attemptNumber startedAt
      callDeadlineAt stepTransition =>
      now.markCallStarted (snapshot.action? actionId) actionId expectedVersion authority leaseOwner
        attemptNumber startedAt callDeadlineAt stepTransition
  | completeSucceeded expectedVersion leaseOwner attemptNumber result =>
      now.completeSucceeded actionId expectedVersion leaseOwner attemptNumber result
  | completeFailed expectedVersion leaseOwner attemptNumber reasonCode occurredAt =>
      now.completeFailed actionId expectedVersion leaseOwner attemptNumber reasonCode occurredAt
  | markOutcomeUnknown expectedVersion leaseOwner attemptNumber reasonCode occurredAt =>
      now.markOutcomeUnknown actionId expectedVersion leaseOwner attemptNumber reasonCode occurredAt
  | cancelUnstartedAfterRelease snapshot runId planHash expectedVersion occurredAt reasonCode =>
      now.cancelUnstartedAfterRelease (snapshot.action? actionId) actionId runId planHash
        expectedVersion occurredAt reasonCode
  | releaseStaleForRetry expectedVersion attemptNumber occurredAt release =>
      now.releaseStaleForRetry actionId expectedVersion attemptNumber occurredAt release
  | failExhaustedStalePreCall expectedVersion attemptNumber occurredAt reasonCode =>
      now.failExhaustedStalePreCall actionId expectedVersion attemptNumber occurredAt reasonCode
  | elsewhere after => if after.action? actionId = now.action? actionId then some after else none

end DeliveryOperation

/-- The database now and every earlier state that some worker may still have read. -/
structure DeliveryTrace where
  now : Database
  seen : List Database

/-- Interleaved repository operations on one action that has no delivery attempt yet. -/
def deliveryMachine (actionId : String) : Machine DeliveryTrace DeliveryOperation where
  initial trace := trace.seen = [] ∧ ∃ stored, trace.now.action? actionId = some stored ∧
    stored.attempts = [] ∧ stored.action.deliveryAttemptCount = 0
  step trace operation after :=
    (∀ snapshot, operation.snapshot? = some snapshot → snapshot ∈ trace.now :: trace.seen) ∧
      operation.apply actionId trace.now = some after.now ∧ after.seen = trace.now :: trace.seen

/-- A row read earlier: it is the stored row or an older version of the same action. -/
structure StoredAction.Precedes (old new : StoredAction) : Prop where
  contract : old.action.contract = new.action.contract
  attempts : old.action.deliveryAttemptCount ≤ new.action.deliveryAttemptCount
  version : old = new ∨ old.action.version < new.action.version

namespace StoredAction.Precedes

variable {first second third : StoredAction}

theorem refl (stored : StoredAction) : Precedes stored stored := ⟨rfl, Nat.le_refl _, .inl rfl⟩

theorem trans (left : Precedes first second) (right : Precedes second third) :
    Precedes first third where
  contract := left.contract.trans right.contract
  attempts := Nat.le_trans left.attempts right.attempts
  version := by
    rcases left.version with rfl | before
    · exact right.version
    · rcases right.version with rfl | later
      · exact .inr before
      · exact .inr (Nat.lt_trans before later)

theorem eq_of_version (precedes : Precedes first second)
    (same : first.action.version = second.action.version) : first = second :=
  precedes.version.resolve_right (by omega)

end StoredAction.Precedes

/-- What one accepted operation makes of the action it works on. -/
structure DeliveryStep (stored updated : StoredAction) : Prop where
  history : updated.DeliveryHistory
  precedes : stored.Precedes updated
  terminal : stored.action.state.terminal → updated = stored

namespace DeliveryStep

variable {stored : StoredAction} {action : ExternalAction} {attempts : List DispatchAttempt}

theorem unchanged (history : stored.DeliveryHistory) : DeliveryStep stored stored :=
  ⟨history, .refl stored, fun _ => rfl⟩

theorem live (history : StoredAction.DeliveryHistory { action, attempts })
    (contract : action.contract = stored.action.contract)
    (count : stored.action.deliveryAttemptCount ≤ action.deliveryAttemptCount)
    (version : action.version = stored.action.version + 1)
    (state : stored.action.state.terminal = false) : DeliveryStep stored { action, attempts } where
  history := history
  precedes := ⟨contract.symm, count, .inr (by simp [version])⟩
  terminal := by simp [state]

end DeliveryStep

namespace Database

variable {db after : Database} {snapshot : Option StoredAction} {stored : StoredAction}
variable {actionId runId planHash leaseOwner : String} {expectedVersion attemptNumber : Nat}
variable {authority : ReleaseAuthority}

theorem claimReserved_step {claimedAt leaseExpiresAt : Time}
    (found : db.action? actionId = some stored)
    (history : stored.DeliveryHistory) (read : ∀ old, snapshot = some old → old.Precedes stored)
    (claimed : db.claimReserved snapshot actionId expectedVersion authority leaseOwner claimedAt
      leaseExpiresAt = some after) :
    ∃ updated, after.action? actionId = some updated ∧ DeliveryStep stored updated := by
  obtain ⟨current, same, action, snapshotIs, present, _, _, version, reserved, _,
    fresh, row, rfl⟩ :=
    claimReserved_effect claimed
  obtain rfl : stored = same := Option.mem_unique found present
  have precedes := read current snapshotIs
  -- A stale count names a number that is already stored, so the read was current.
  have count : current.action.deliveryAttemptCount = stored.action.deliveryAttemptCount := by
    rw [history.numbered, List.mem_range'_1] at fresh
    have ordered := precedes.attempts
    omega
  refine ⟨_, storeAction_action?_self found, DeliveryStep.live ?_ ?_ ?_ ?_ ?_⟩
  · rw [precedes.contract]
    let lease : DispatchLease := {
      owner := leaseOwner
      attemptNumber := current.action.deliveryAttemptCount + 1
      claimedAt
      expiresAt := leaseExpiresAt }
    have number : lease.attemptNumber = stored.action.deliveryAttemptCount + 1 := by rw [← count]
    exact history.claim reserved number row
  · rw [row]
  · simp [row, count]
  · rw [row]
  · simp [reserved, ExternalActionState.terminal]

theorem markCallStarted_step {startedAt callDeadlineAt : Time}
    (found : db.action? actionId = some stored) (history : stored.DeliveryHistory)
    (marked : db.markCallStarted snapshot actionId expectedVersion authority
      leaseOwner attemptNumber startedAt callDeadlineAt stepTransition = some after) :
    ∃ updated, after.action? actionId = some updated ∧ DeliveryStep stored updated := by
  obtain ⟨current, currentLease, same, lease, action, stepped, _, _, currentNumber, present, held,
    number, _, _, _, dispatching, _, _, row, started, selected, rfl⟩ :=
      markCallStarted_effect marked
  obtain rfl : stored = same := Option.mem_unique found present
  have steppedFound : stepped.action? actionId = some stored := by
    rw [action?, startStep_keeps_actions started]
    exact found
  refine ⟨_, storeAction_action?_self steppedFound, DeliveryStep.live ?_ ?_ ?_ ?_ ?_⟩
  · have numbered : ∀ attempt,
        heldAttempt current.action.contract.idempotencySupport currentLease attempt →
          attempt.attemptNumber = lease.attemptNumber := by
      intro attempt holds
      simp only [heldAttempt, Bool.and_eq_true, decide_eq_true_eq] at holds
      rw [holds.1.1.1.1.1.1, currentNumber, number]
    rw [history.update_selected numbered selected]
    exact history.start held dispatching row
  · rw [row]
  · rw [row]
  · rw [row]
  · simp [dispatching, ExternalActionState.terminal]

theorem complete_step (found : db.action? actionId = some stored) (history : stored.DeliveryHistory)
    (completed : db.complete actionId expectedVersion leaseOwner attemptNumber outcome =
      some after) :
    ∃ updated, after.action? actionId = some updated ∧ DeliveryStep stored updated := by
  obtain ⟨same, lease, action, present, held, _, dispatching, _, rfl, _, _, row, rfl⟩ :=
    complete_effect completed
  obtain rfl : stored = same := Option.mem_unique found present
  refine ⟨_, storeAction_action?_self found, DeliveryStep.live
    (history.conclude held (by rw [row]; rfl) (by rw [row]; rfl) (by rw [row]; rfl) ?_ ?_)
    (by rw [row]; rfl) (by rw [row]; rfl) (by rw [row]; rfl)
      (by simp [dispatching, ExternalActionState.terminal])⟩
  · intro reserved
    rw [row] at reserved
    cases outcome <;> cases reserved
  · intro retried
    cases outcome <;> cases retried

theorem cancelUnstartedAfterRelease_step {occurredAt : Time}
    (found : db.action? actionId = some stored) (history : stored.DeliveryHistory)
    (read : ∀ old, snapshot = some old → old.Precedes stored)
    (cancelled : db.cancelUnstartedAfterRelease snapshot actionId runId planHash expectedVersion
      occurredAt reasonCode = some after) :
    ∃ updated, after.action? actionId = some updated ∧ DeliveryStep stored updated := by
  obtain ⟨current, same, action, snapshotIs, present, _, readVersion, version, _, _, _,
    row, changed⟩ :=
    cancelUnstartedAfterRelease_effect cancelled
  obtain rfl : stored = same := Option.mem_unique found present
  obtain rfl : current = stored :=
    (read current snapshotIs).eq_of_version (readVersion.trans version.symm)
  rcases changed with ⟨reserved, rfl⟩ | ⟨dispatching, selected, rfl⟩
  · have unleased : current.action.lease = none := by
      rcases held : current.action.lease with _ | lease
      · rfl
      · have dispatching := current.action.dispatching_iff_lease.mpr ⟨lease, held⟩
        rw [reserved] at dispatching
        cases dispatching
    refine ⟨_, storeAction_action?_self found, DeliveryStep.live
      (history.settle unleased (by rw [row]; rfl) (by rw [row]; rfl) (by rw [row]; rfl)
        (by rw [row]; simp [StoredAction.settledRow]))
      (by rw [row]; rfl) (by rw [row]; rfl) (by rw [row]; rfl)
        (by simp [reserved, ExternalActionState.terminal])⟩
  · obtain ⟨lease, held⟩ := current.action.dispatching_iff_lease.mp dispatching
    have number := (current.action.lease_attempt held).1
    have attempts : current.cancelAttempt current.action.deliveryAttemptCount
      occurredAt reasonCode =
        current.concludeAttempt lease.attemptNumber {
          completedAt := occurredAt
          conclusion := .cancelled
          reasonCode := some reasonCode
          connectorReceiptId := none } := by
      refine history.update_selected ?_ selected
      intro attempt holds
      simp only [StoredAction.unstartedAttempt, Bool.and_eq_true, decide_eq_true_eq] at holds
      rw [holds.1.1, number]
    rw [attempts]
    refine ⟨_, storeAction_action?_self found, DeliveryStep.live
      (history.conclude held (by rw [row]; rfl) (by rw [row]; rfl) (by rw [row]; rfl) ?_ ?_)
      (by rw [row]; rfl) (by rw [row]; rfl) (by rw [row]; rfl)
      (by simp [dispatching, ExternalActionState.terminal])⟩
    · intro released
      rw [row] at released
      cases released
    · intro retried
      cases retried

theorem releaseStaleForRetry_step {occurredAt : Time}
    (found : db.action? actionId = some stored) (history : stored.DeliveryHistory)
    (released : db.releaseStaleForRetry actionId expectedVersion attemptNumber occurredAt release =
      some after) :
    ∃ updated, after.action? actionId = some updated ∧ DeliveryStep stored updated := by
  obtain ⟨same, lease, action, present, held, _, dispatching, rfl, _, expired, row, rfl⟩ :=
    releaseStaleForRetry_effect released
  obtain rfl : stored = same := Option.mem_unique found present
  simp only [releasable, Bool.and_eq_true] at expired
  refine ⟨_, storeAction_action?_self found, DeliveryStep.live
    (history.conclude held (by rw [row]; rfl) (by rw [row]; rfl) (by rw [row]; rfl) ?_ ?_)
    (by rw [row]; rfl) (by rw [row]; rfl) (by rw [row]; rfl)
    (by simp [dispatching, ExternalActionState.terminal])⟩
  · intro _
    cases called : stored.action.call <;> cases release <;>
      simp_all [RetryRelease.conclusion]
  · intro retried
    cases called : stored.action.call <;> cases release <;>
      simp_all [RetryRelease.conclusion]

theorem failExhaustedStalePreCall_step {occurredAt : Time}
    (found : db.action? actionId = some stored) (history : stored.DeliveryHistory)
    (failed : db.failExhaustedStalePreCall actionId expectedVersion attemptNumber
      occurredAt reasonCode = some after) :
    ∃ updated, after.action? actionId = some updated ∧ DeliveryStep stored updated := by
  obtain ⟨same, lease, action, present, held, _, dispatching, rfl, _, _, row, rfl⟩ :=
    failExhaustedStalePreCall_effect failed
  obtain rfl : stored = same := Option.mem_unique found present
  refine ⟨_, storeAction_action?_self found, DeliveryStep.live
    (history.conclude held (by rw [row]; rfl) (by rw [row]; rfl) (by rw [row]; rfl) ?_ ?_)
    (by rw [row]; rfl) (by rw [row]; rfl) (by rw [row]; rfl)
    (by simp [dispatching, ExternalActionState.terminal])⟩
  · intro released
    rw [row] at released
    cases released
  · intro retried
    cases retried

end Database

end MarketingAgents
