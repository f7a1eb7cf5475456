import Mathlib.Data.List.Chain
import Mathlib.Data.List.Range
import MarketingAgents.Persistence.ExecutionControlEffects

namespace MarketingAgents

open Library

/-- An attempt follows another only as the retry that its transient failure allowed. -/
structure ExecutionAttempt.Retries (previous next : ExecutionAttempt) : Prop where
  failed : previous.outcome = some .transientFailure
  unended : previous.terminalReasonCode = none
  eligible : previous.retryNotBefore = some next.eligibleAt
  waited : next.eligibleAt ≤ next.reservedAt
  ordered : previous.sourceControlVersion < next.sourceControlVersion

/-- The attempt repeats its operation and was reserved under an earlier control version. -/
structure Operation.Binds (operation : Operation) (controlVersion : Nat)
    (attempt : ExecutionAttempt) : Prop where
  operationKey : attempt.operationKey = operation.policy.operationKey
  policyHash : attempt.policyHash = operation.policy.policyHash
  kind : attempt.kind = operation.policy.kind
  positive : 0 < attempt.sourceControlVersion
  earlier : attempt.sourceControlVersion < controlVersion

/-- What the attempts of one operation say about each other under a control version. -/
structure Operation.AttemptHistory (operation : Operation) (controlVersion : Nat) : Prop where
  numbered : operation.attempts.map (·.attemptNumber) = List.range' 1 operation.attempts.length
  withinLimit : operation.attempts.length ≤ operation.policy.maxAttempts
  identified : (operation.attempts.map (·.id)).Nodup
  first : ∀ attempt ∈ operation.attempts.head?, attempt.eligibleAt = attempt.reservedAt
  chained : operation.attempts.IsChain ExecutionAttempt.Retries
  bound : ∀ attempt ∈ operation.attempts, operation.Binds controlVersion attempt
  retryable : ∀ attempt ∈ operation.attempts, attempt.retryNotBefore ≠ none →
    attempt.outcome = some .transientFailure ∧ attempt.terminalReasonCode = none

namespace Operation.AttemptHistory

variable {operation : Operation} {controlVersion later : Nat} {attempt : ExecutionAttempt}

theorem empty (unattempted : operation.attempts = []) :
    operation.AttemptHistory controlVersion where
  numbered := by simp [unattempted]
  withinLimit := by simp [unattempted]
  identified := by simp [unattempted]
  first := by simp [unattempted]
  chained := by simp [unattempted]
  bound := by simp [unattempted]
  retryable := by simp [unattempted]

theorem mono (history : operation.AttemptHistory controlVersion) (newer : controlVersion ≤ later) :
    operation.AttemptHistory later :=
  { history with
    bound := fun attempt member =>
      let binds := history.bound attempt member
      { binds with earlier := Nat.lt_of_lt_of_le binds.earlier newer } }

private theorem superseded {attempts : List ExecutionAttempt}
    (chained : attempts.IsChain ExecutionAttempt.Retries) :
    attempts.Pairwise fun earlier _ => earlier.outcome = some .transientFailure := by
  induction attempts with
  | nil => exact .nil
  | cons attempt rest ih =>
      cases rest with
      | nil => exact List.pairwise_singleton _ _
      | cons next rest =>
          rw [List.isChain_cons_cons] at chained
          exact .cons (fun _ _ => chained.1.failed) (ih chained.2)

theorem superseded_failed (history : operation.AttemptHistory controlVersion) :
    operation.attempts.Pairwise fun earlier _ => earlier.outcome = some .transientFailure :=
  superseded history.chained

theorem open_at_most_once (history : operation.AttemptHistory controlVersion) :
    (operation.attempts.filter (·.isOpen)).length ≤ 1 := by
  have failed := history.superseded_failed.filter (·.isOpen)
  match open_ : operation.attempts.filter (·.isOpen) with
  | [] | [_] => rw [open_]; simp
  | first :: second :: rest =>
      rw [open_, List.pairwise_cons] at failed
      have outcome := failed.1 second (by simp)
      have member : first ∈ operation.attempts.filter (·.isOpen) := by simp [open_]
      have isOpen := (List.mem_filter.mp member).2
      rw [ExecutionAttempt.isOpen, Option.isNone_iff_eq_none] at isOpen
      simp [ExecutionAttempt.outcome, isOpen] at outcome

theorem open_is_last (history : operation.AttemptHistory controlVersion)
    (member : attempt ∈ operation.attempts) (isOpen : attempt.completion = none) :
    ∃ earlier, operation.attempts = earlier ++ [attempt] := by
  obtain ⟨earlier, rest, split⟩ := List.append_of_mem member
  cases rest with
  | nil => exact ⟨earlier, split⟩
  | cons next rest =>
      have chained := history.chained
      rw [split, List.isChain_append_cons_cons] at chained
      have failed := chained.2.1.failed
      simp [ExecutionAttempt.outcome, isOpen] at failed

/-- A reservation appends the next attempt. -/
theorem reserve {command : AttemptReservationCommand} {control : RunExecutionControl}
    (history : operation.AttemptHistory control.version)
    (positive : 0 < control.version) (named : command.operationKey = operation.policy.operationKey)
    (reserved : Database.ReservedAttempt command operation control window attempt)
    (fresh : ∀ other ∈ operation.attempts, other.id ≠ command.attemptId) :
    AttemptHistory { operation with attempts := operation.attempts ++ [attempt] }
      (control.version + 1) := by
  have number : attempt.attemptNumber = operation.attempts.length + 1 := by
    rcases reserved.follows with ⟨empty, number, _⟩ | ⟨previous, last, _, _, number⟩
    · simp [empty, number]
    · have lastNumber := congrArg List.getLast? history.numbered
      simp only [List.getLast?_map, last, Option.map_some, List.getLast?_range'] at lastNumber
      split at lastNumber
      · cases lastNumber
      · simp only [Option.some.injEq] at lastNumber
        omega
  refine {
    numbered := ?_
    withinLimit := ?_
    identified := ?_
    first := ?_
    chained := ?_
    bound := ?_
    retryable := ?_ }
  · simp only [List.map_append, history.numbered, List.map_cons, List.map_nil, number,
      List.length_append, List.length_singleton, List.range'_1_concat]
    rw [Nat.add_comm 1]
  · have within := reserved.withinLimit
    simpa [number] using within
  · rw [List.map_append, List.nodup_append]
    refine ⟨history.identified, by simp, ?_⟩
    intro left member right single
    obtain ⟨other, stored, rfl⟩ := List.mem_map.mp member
    simp only [List.map_cons, List.map_nil, List.mem_singleton] at single
    rw [single, reserved.id]
    exact fresh other stored
  · intro head member
    cases attempts : operation.attempts with
    | nil =>
        simp only [attempts, List.nil_append, List.head?_cons, Option.mem_some_iff] at member
        rcases reserved.follows with ⟨_, _, eligible⟩ | ⟨previous, last, _⟩
        · rw [← member]
          exact eligible
        · simp [attempts] at last
    | cons other rest =>
        simp only [attempts, List.cons_append, List.head?_cons, Option.mem_some_iff] at member
        exact history.first head (by simp [attempts, member])
  · refine List.isChain_append.mpr ⟨history.chained, by simp, ?_⟩
    intro previous last next single
    simp only [List.head?_cons, Option.mem_some_iff] at single
    subst single
    rcases reserved.follows with ⟨empty, _⟩ | ⟨found, same, retry, waited, _⟩
    · simp [empty] at last
    · obtain rfl : previous = found := Option.mem_unique last same
      have member := List.mem_of_getLast? same
      obtain ⟨failed, unended⟩ := history.retryable previous member (by simp [retry])
      refine ⟨failed, unended, retry, waited, ?_⟩
      rw [reserved.sourceControlVersion]
      exact (history.bound previous member).earlier
  · intro other member
    rcases List.mem_append.mp member with old | new
    · have binds := history.bound other old
      exact ⟨binds.operationKey, binds.policyHash, binds.kind, binds.positive,
        Nat.lt_succ_of_lt binds.earlier⟩
    · rw [List.mem_singleton.mp new]
      exact ⟨reserved.operationKey.trans named, reserved.policyHash, reserved.kind,
        by rw [reserved.sourceControlVersion]; exact positive,
        by rw [reserved.sourceControlVersion]; exact Nat.lt_succ_self _⟩
  · intro other member retry
    rcases List.mem_append.mp member with old | new
    · exact history.retryable other old retry
    · rw [List.mem_singleton.mp new] at retry
      simp [ExecutionAttempt.retryNotBefore, reserved.completion] at retry

theorem finish_open {earlier : List ExecutionAttempt}
    (history : operation.AttemptHistory controlVersion)
    (split : operation.attempts = earlier ++ [attempt]) (completion : AttemptCompletion) :
    (operation.finish attempt.id completion).attempts =
      earlier ++ [{ attempt with completion := some completion }] := by
  have identified := history.identified
  rw [split, List.map_append, List.nodup_append] at identified
  simp only [Operation.finish, split, List.map_append, List.map_cons, List.map_nil, if_true]
  congr 1
  rw [List.map_congr_left (g := id), List.map_id]
  intro other member
  have differs : other.id ≠ attempt.id :=
    identified.2.2 other.id (List.mem_map_of_mem member) attempt.id (by simp)
  simp [differs]

/-- A completion closes the last attempt and changes none of the others. -/
theorem finish {completion : AttemptCompletion} (history : operation.AttemptHistory controlVersion)
    (member : attempt ∈ operation.attempts) (isOpen : attempt.completion = none)
    (retryable : completion.retryNotBefore ≠ none →
      completion.outcome = .transientFailure ∧ completion.terminalReasonCode = none) :
    (operation.finish attempt.id completion).AttemptHistory controlVersion := by
  obtain ⟨earlier, split⟩ := history.open_is_last member isOpen
  have finished := history.finish_open split completion
  have length : (operation.finish attempt.id completion).attempts.length =
      operation.attempts.length := by
    rw [finished, split]
    simp
  have kept : ∀ {β : Type} (field : ExecutionAttempt → β),
      field { attempt with completion := some completion } = field attempt →
      (operation.finish attempt.id completion).attempts.map field =
          operation.attempts.map field := by
    intro β field same
    rw [finished, split]
    simp [same]
  refine {
    numbered := by rw [kept _ rfl, length]; exact history.numbered
    withinLimit := by rw [length]; exact history.withinLimit
    identified := by rw [kept _ rfl]; exact history.identified
    first := ?_
    chained := ?_
    bound := ?_
    retryable := ?_ }
  · intro head found
    have first := history.first
    rw [finished] at found
    rw [split] at first
    cases earlier with
    | nil =>
        simp only [List.nil_append, List.head?_cons, Option.mem_some_iff] at found
        rw [← found]
        exact first attempt (by simp)
    | cons other rest => exact first head (by simpa using found)
  · have chained := history.chained
    rw [split, List.isChain_append] at chained
    rw [finished, List.isChain_append]
    refine ⟨chained.1, by simp, ?_⟩
    intro previous last next single
    simp only [List.head?_cons, Option.mem_some_iff] at single
    have retries := chained.2.2 previous last attempt (by simp)
    subst single
    exact ⟨retries.failed, retries.unended, retries.eligible, retries.waited, retries.ordered⟩
  · intro other listed
    rw [finished] at listed
    rcases List.mem_append.mp listed with old | new
    · have binds := history.bound other (by simp [split, old])
      exact ⟨binds.operationKey, binds.policyHash, binds.kind, binds.positive, binds.earlier⟩
    · have binds := history.bound attempt member
      rw [List.mem_singleton.mp new]
      exact ⟨binds.operationKey, binds.policyHash, binds.kind, binds.positive, binds.earlier⟩
  · intro other listed retry
    rw [finished] at listed
    rcases List.mem_append.mp listed with old | new
    · exact history.retryable other (by simp [split, old]) retry
    · rw [List.mem_singleton.mp new] at retry ⊢
      obtain ⟨failed, unended⟩ := retryable (by simpa [ExecutionAttempt.retryNotBefore] using retry)
      simp [ExecutionAttempt.outcome, ExecutionAttempt.terminalReasonCode, failed, unended]

end Operation.AttemptHistory

end MarketingAgents
