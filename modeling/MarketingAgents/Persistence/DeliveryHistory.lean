import Mathlib.Data.List.Nodup
import Mathlib.Data.List.Range
import MarketingAgents.Persistence.ActionEffects

namespace MarketingAgents

open Library

namespace StoredAction

/-- The unfinished attempt of a lease repeats the lease and the call marker of its action. -/
structure Mirrors (stored : StoredAction) (lease : DispatchLease)
    (attempt : DispatchAttempt) : Prop where
  unfinished : attempt.completion = none
  owner : attempt.leaseOwner = lease.owner
  claimedAt : attempt.claimedAt = lease.claimedAt
  expiresAt : attempt.leaseExpiresAt = lease.expiresAt
  call : attempt.call = stored.action.call

/-- What the attempt rows of one action say about each other and about its row. -/
structure DeliveryHistory (stored : StoredAction) : Prop where
  numbered : stored.attemptNumbers = List.range' 1 stored.action.deliveryAttemptCount
  supported : ∀ attempt ∈ stored.attempts,
    attempt.idempotencySupport = stored.action.contract.idempotencySupport
  earlier : ∀ attempt ∈ stored.attempts, attempt.attemptNumber <
    stored.action.deliveryAttemptCount →
    releasedAttempt stored.action.contract.idempotencySupport attempt
  current : ∀ lease, stored.action.lease = some lease → ∀ attempt ∈ stored.attempts,
    attempt.attemptNumber = stored.action.deliveryAttemptCount → Mirrors stored lease attempt
  finished : stored.action.lease = none → ∀ attempt ∈ stored.attempts, attempt.completion ≠ none
  reserved : stored.action.state = .dispatchReserved → ∀ attempt ∈ stored.attempts,
    releasedAttempt stored.action.contract.idempotencySupport attempt
  retried : ∀ attempt ∈ stored.attempts, attempt.conclusion = some .providerRetry →
    stored.action.contract.idempotencySupport.retryable

variable {stored : StoredAction} {lease : DispatchLease} {action : ExternalAction}
variable {attempt other : DispatchAttempt} {support : IdempotencySupport}

theorem DeliveryHistory.empty (unattempted : stored.action.deliveryAttemptCount = 0)
    (fresh : stored.attempts = []) : DeliveryHistory stored where
  numbered := by simp [attemptNumbers, fresh, unattempted]
  supported := by simp [fresh]
  earlier := by simp [fresh]
  current := by simp [fresh]
  finished := by simp [fresh]
  reserved := by simp [fresh]
  retried := by simp [fresh]

namespace DeliveryHistory

theorem number_bounds (history : DeliveryHistory stored) (member : attempt ∈ stored.attempts) :
    1 ≤ attempt.attemptNumber ∧ attempt.attemptNumber ≤ stored.action.deliveryAttemptCount := by
  have listed : attempt.attemptNumber ∈ stored.attemptNumbers := List.mem_map_of_mem member
  rw [history.numbered, List.mem_range'_1] at listed
  omega

theorem number_injective (history : DeliveryHistory stored) (left : attempt ∈ stored.attempts)
    (right : other ∈ stored.attempts) (same : attempt.attemptNumber = other.attemptNumber) :
    attempt = other := by
  have distinct : stored.attemptNumbers.Nodup := by
    rw [history.numbered]
    exact List.nodup_range'
  exact List.inj_on_of_nodup_map distinct left right same

theorem settled_or_last (history : DeliveryHistory stored) (member : attempt ∈ stored.attempts) :
    releasedAttempt stored.action.contract.idempotencySupport attempt ∨
      attempt.attemptNumber = stored.action.deliveryAttemptCount := by
  rcases Nat.lt_or_ge attempt.attemptNumber stored.action.deliveryAttemptCount with before | last
  · exact .inl (history.earlier attempt member before)
  · exact .inr (Nat.le_antisymm (history.number_bounds member).2 last)

end DeliveryHistory

theorem releasedAttempt_iff : releasedAttempt support attempt ↔
    attempt.idempotencySupport = support ∧
      attempt.conclusion = some (if attempt.started then .providerRetry else .preCallExpired) := by
  simp [releasedAttempt]

theorem releasedAttempt_finished (released : releasedAttempt support attempt) :
    attempt.completion ≠ none := by
  intro unfinished
  have concluded := (releasedAttempt_iff.mp released).2
  simp [DispatchAttempt.conclusion, unfinished] at concluded

theorem releasedAttempt_provider_retry (released : releasedAttempt support attempt)
    (started : attempt.started) : attempt.conclusion = some .providerRetry := by
  simpa [started] using (releasedAttempt_iff.mp released).2

theorem DeliveryHistory.update_selected (history : DeliveryHistory stored)
    {selects : DispatchAttempt → Bool} {number : Nat} {change : DispatchAttempt → DispatchAttempt}
    (numbered : ∀ attempt, selects attempt → attempt.attemptNumber = number)
    (present : stored.attempts.any selects) :
    stored.attempts.map (fun attempt => if selects attempt then change attempt else attempt) =
      stored.updateAttempt number change := by
  obtain ⟨chosen, chosenMember, chosenSelected⟩ := List.any_eq_true.mp present
  apply List.map_congr_left
  intro attempt member
  by_cases selected : selects attempt
  · simp [selected, numbered attempt selected]
  · have differs : attempt.attemptNumber ≠ number := by
      intro same
      have equal := history.number_injective member chosenMember
        (same.trans (numbered chosen chosenSelected).symm)
      exact selected (equal ▸ chosenSelected)
    simp [selected, differs]

theorem mem_updateAttempt {number : Nat} {change : DispatchAttempt → DispatchAttempt} :
    attempt ∈ stored.updateAttempt number change ↔
      ∃ before ∈ stored.attempts,
        attempt = if before.attemptNumber = number then change before else before := by
  simp only [updateAttempt, List.mem_map, eq_comm]

theorem numbers_updateAttempt {number : Nat} {change : DispatchAttempt → DispatchAttempt}
    (kept : ∀ attempt, (change attempt).attemptNumber = attempt.attemptNumber) :
    (stored.updateAttempt number change).map (·.attemptNumber) = stored.attemptNumbers := by
  simp only [updateAttempt, attemptNumbers, List.map_map]
  apply List.map_congr_left
  intro attempt _
  by_cases selected : attempt.attemptNumber = number <;> simp [selected, kept]

namespace DeliveryHistory

/-- A claim appends the next attempt under the lease it installs. -/
theorem claim (history : DeliveryHistory stored)
    (reserved : stored.action.state = .dispatchReserved)
    (number : lease.attemptNumber = stored.action.deliveryAttemptCount + 1)
    (row : action.toExternalActionRow = { stored.action.toExternalActionRow with
      state := .dispatching
      lease := some lease
      deliveryAttemptCount := lease.attemptNumber
      updatedAt := lease.claimedAt
      version := stored.action.version + 1 }) :
    DeliveryHistory {
      action
      attempts := stored.attempts ++ [{
        attemptNumber := lease.attemptNumber
        idempotencySupport := stored.action.contract.idempotencySupport
        leaseOwner := lease.owner
        claimedAt := lease.claimedAt
        leaseExpiresAt := lease.expiresAt
        call := none
        completion := none }] } := by
  have uncalled : stored.action.call = none := by
    rcases called : stored.action.call with _ | call
    · rfl
    · obtain ⟨held, leased⟩ := stored.action.call_requires_lease called
      have dispatching := stored.action.dispatching_iff_lease.mpr ⟨held, leased⟩
      rw [reserved] at dispatching
      cases dispatching
  have released := history.reserved reserved
  refine {
    numbered := ?_
    supported := ?_
    earlier := ?_
    current := ?_
    finished := ?_
    reserved := ?_
    retried := ?_ } <;> simp only [row]
  · have before := history.numbered
    simp only [attemptNumbers] at before
    simp only [attemptNumbers, List.map_append, before, List.map_cons, List.map_nil, number,
      List.range'_1_concat]
    rw [Nat.add_comm 1]
  · intro attempt member
    rcases List.mem_append.mp member with old | new
    · exact history.supported attempt old
    · rw [List.mem_singleton.mp new]
  · intro attempt member before
    rcases List.mem_append.mp member with old | new
    · exact released attempt old
    · rw [List.mem_singleton.mp new] at before
      exact absurd before (Nat.lt_irrefl _)
  · intro other same attempt member numbered
    cases same
    rcases List.mem_append.mp member with old | new
    · have bounds := history.number_bounds old
      omega
    · rw [List.mem_singleton.mp new]
      exact ⟨rfl, rfl, rfl, rfl, by rw [row]; exact uncalled.symm⟩
  · intro unleased
    cases unleased
  · intro dispatching
    cases dispatching
  · intro attempt member concluded
    rcases List.mem_append.mp member with old | new
    · exact history.retried attempt old concluded
    · rw [List.mem_singleton.mp new] at concluded
      simp [DispatchAttempt.conclusion] at concluded

/-- A call start marks the attempt of the current lease and nothing else. -/
theorem start (history : DeliveryHistory stored) (held : stored.action.lease = some lease)
    (dispatching : stored.action.state = .dispatching) {startedAt : Time}
    (row : action.toExternalActionRow = { stored.action.toExternalActionRow with
      call := some call
      updatedAt := startedAt
      version := stored.action.version + 1 }) :
    DeliveryHistory {
      action
      attempts := stored.updateAttempt lease.attemptNumber fun attempt =>
        { attempt with call := some call } } := by
  have number := (stored.action.lease_attempt held).1
  have kept : ∀ {attempt}, attempt ∈ stored.updateAttempt lease.attemptNumber
      (fun attempt => { attempt with call := some call }) →
      ∃ before ∈ stored.attempts, attempt.attemptNumber = before.attemptNumber ∧
        attempt.idempotencySupport = before.idempotencySupport ∧
        attempt.completion = before.completion ∧ attempt.leaseOwner = before.leaseOwner ∧
        attempt.claimedAt = before.claimedAt ∧ attempt.leaseExpiresAt = before.leaseExpiresAt ∧
        (before.attemptNumber = lease.attemptNumber → attempt.call = some call) ∧
        (before.attemptNumber ≠ lease.attemptNumber → attempt = before) := by
    intro attempt member
    obtain ⟨before, old, same⟩ := mem_updateAttempt.mp member
    refine ⟨before, old, ?_⟩
    by_cases selected : before.attemptNumber = lease.attemptNumber <;> simp [same, selected]
  refine {
    numbered := ?_
    supported := ?_
    earlier := ?_
    current := ?_
    finished := ?_
    reserved := ?_
    retried := ?_ } <;> simp only [row]
  · exact (numbers_updateAttempt (by simp)).trans history.numbered
  · intro attempt member
    obtain ⟨before, old, _, support, _⟩ := kept member
    exact support.trans (history.supported before old)
  · intro attempt member before
    obtain ⟨earlier, old, numbered, _, _, _, _, _, _, same⟩ := kept member
    rw [same (by omega)]
    exact history.earlier earlier old (by omega)
  · intro other same attempt member numbered
    obtain ⟨before, old, sameNumber, _, completion, owner, claimedAt, expiresAt, called, _⟩ :=
      kept member
    have mirrored := history.current other same before old (by omega)
    exact ⟨completion.trans mirrored.unfinished, owner.trans mirrored.owner,
      claimedAt.trans mirrored.claimedAt, expiresAt.trans mirrored.expiresAt,
      by rw [row]; exact called (by omega)⟩
  · intro unleased
    rw [held] at unleased
    cases unleased
  · intro reserved
    rw [dispatching] at reserved
    cases reserved
  · intro attempt member concluded
    obtain ⟨before, old, _, _, completion, _⟩ := kept member
    rw [DispatchAttempt.conclusion, completion] at concluded
    exact history.retried before old concluded

/-- Ending the current attempt settles its action. -/
theorem conclude (history : DeliveryHistory stored) (held : stored.action.lease = some lease)
    {completion : DispatchCompletion}
    (contract : action.contract = stored.action.contract)
    (count : action.deliveryAttemptCount = stored.action.deliveryAttemptCount)
    (unleased : action.lease = none)
    (released : action.state = .dispatchReserved → completion.conclusion =
      if stored.action.call.isSome then .providerRetry else .preCallExpired)
    (retried : completion.conclusion = .providerRetry →
      stored.action.contract.idempotencySupport.retryable) :
    DeliveryHistory
      { action, attempts := stored.concludeAttempt lease.attemptNumber completion } := by
  have number := (stored.action.lease_attempt held).1
  have cases_ : ∀ {attempt}, attempt ∈ stored.concludeAttempt lease.attemptNumber completion →
      ∃ before ∈ stored.attempts, attempt.attemptNumber = before.attemptNumber ∧
        attempt.idempotencySupport = before.idempotencySupport ∧ attempt.call = before.call ∧
        (before.attemptNumber = lease.attemptNumber → attempt.completion = some completion) ∧
        (before.attemptNumber ≠ lease.attemptNumber → attempt = before) := by
    intro attempt member
    obtain ⟨before, old, same⟩ := mem_updateAttempt.mp member
    refine ⟨before, old, ?_⟩
    by_cases selected : before.attemptNumber = lease.attemptNumber <;> simp [same, selected]
  refine {
    numbered := ?_
    supported := ?_
    earlier := ?_
    current := ?_
    finished := ?_
    reserved := ?_
    retried := ?_ } <;> simp only [contract, count]
  · exact (numbers_updateAttempt (by simp)).trans history.numbered
  · intro attempt member
    obtain ⟨before, old, _, support, _⟩ := cases_ member
    exact support.trans (history.supported before old)
  · intro attempt member before
    obtain ⟨earlier, old, numbered, _, _, _, same⟩ := cases_ member
    rw [same (by omega)]
    exact history.earlier earlier old (by omega)
  · intro other same
    rw [unleased] at same
    cases same
  · intro _ attempt member
    obtain ⟨before, old, _, _, _, ended, same⟩ := cases_ member
    by_cases last : before.attemptNumber = lease.attemptNumber
    · simp [ended last]
    · rw [same last]
      rcases history.settled_or_last old with released | final
      · exact releasedAttempt_finished released
      · omega
  · intro reserved attempt member
    obtain ⟨before, old, _, support, call, ended, same⟩ := cases_ member
    by_cases last : before.attemptNumber = lease.attemptNumber
    · have mirrored := history.current lease held before old (by omega)
      rw [releasedAttempt_iff]
      refine ⟨support.trans (history.supported before old), ?_⟩
      simp [DispatchAttempt.conclusion, DispatchAttempt.started, ended last,
        released reserved, call, mirrored.call]
    · rw [same last]
      exact (history.settled_or_last old).resolve_right (by omega)
  · intro attempt member concluded
    obtain ⟨before, old, _, _, _, ended, same⟩ := cases_ member
    by_cases last : before.attemptNumber = lease.attemptNumber
    · rw [DispatchAttempt.conclusion, ended last] at concluded
      exact retried (by simpa using concluded)
    · rw [same last] at concluded
      exact history.retried before old concluded

theorem settle (history : DeliveryHistory stored) (unleased : stored.action.lease = none)
    (contract : action.contract = stored.action.contract)
    (count : action.deliveryAttemptCount = stored.action.deliveryAttemptCount)
    (stillUnleased : action.lease = none) (settled : action.state ≠ .dispatchReserved) :
    DeliveryHistory { action, attempts := stored.attempts } where
  numbered := by simpa only [attemptNumbers, count] using history.numbered
  supported := by simpa only [contract] using history.supported
  earlier := by simpa only [contract, count] using history.earlier
  current := by simp [stillUnleased]
  finished := fun _ => history.finished unleased
  reserved := fun reserved => absurd reserved settled
  retried := by simpa only [contract] using history.retried

end DeliveryHistory

end StoredAction

end MarketingAgents
