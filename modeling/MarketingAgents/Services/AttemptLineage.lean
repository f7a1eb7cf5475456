import MarketingAgents.Services.StepEvents

namespace MarketingAgents

open Library

/-! # The lineage of an executing READ step

A cancellation and a cleanup read off the attempts of a step whether its call
is open or waits for a retry.  The relations that they check are those that
reservations and completions keep.
-/

/-- What the attempts of one operation say about the step they are made for. -/
structure AttemptLineage (step : RunStep) (operation : Operation)
    (controlVersion : Nat) : Prop where
  history : operation.AttemptHistory controlVersion
  positive : 1 ≤ step.version
  queued : step.state ∈ [.pending, .ready] → operation.attempts = []
  started : step.state = .executing → operation.attempts ≠ [] ∧ 2 ≤ step.version
  sourced : step.state = .executing → ∀ attempt ∈ operation.attempts, attempt.sourceStepVersion =
    if attempt.attemptNumber = 1 then step.version - 1 else step.version
  latest : step.state = .executing → ∀ attempt ∈ operation.attempts.getLast?,
    attempt.completion = none ∨ attempt.retryNotBefore ≠ none

section Classifier

variable {step : RunStep} {planHash : String} {controlVersion : Nat}

/-- An attempt repeats the operation of its step and was made from the step's version. -/
structure ExecutionAttempt.Repeats (attempt : ExecutionAttempt) (planHash : String)
    (controlVersion : Nat) (step : RunStep) : Prop where
  operationKey : attempt.operationKey = step.runtimePolicy.operationKey
  policyHash : attempt.policyHash = planHash
  kind : attempt.kind = step.runtimePolicy.attemptKind
  source : attempt.sourceStepVersion =
    if attempt.attemptNumber = 1 then step.version - 1 else step.version
  earlier : attempt.sourceControlVersion < controlVersion

/-- A chain of retries passes the check, from whichever attempt it is entered. -/
theorem attemptLineage_ok {attempts : List ExecutionAttempt} {index previousSource : Nat}
    (first : 1 ≤ index)
    (numbered : attempts.map (·.attemptNumber) = List.range' index attempts.length)
    (repeats : ∀ attempt ∈ attempts, attempt.Repeats planHash controlVersion step)
    (enters : ∀ attempt ∈ attempts.head?, previousSource < attempt.sourceControlVersion ∧
      if index = 1 then attempt.eligibleAt = attempt.reservedAt
      else previousRetry = some attempt.eligibleAt ∧ attempt.eligibleAt ≤ attempt.reservedAt)
    (chained : attempts.IsChain ExecutionAttempt.Retries) :
    attemptLineage planHash controlVersion step index previousSource previousRetry attempts =
      .ok () := by
  induction attempts generalizing index previousSource previousRetry with
  | nil => rfl
  | cons attempt rest ih =>
      simp only [List.map_cons, List.length_cons, List.range'_succ, List.cons.injEq] at numbered
      obtain ⟨number, numberedRest⟩ := numbered
      obtain ⟨ordered, eligible⟩ := enters attempt (by simp)
      have binds := repeats attempt (by simp)
      have bound : attemptBinds planHash controlVersion step index previousSource attempt =
          true := by
        have source := binds.source
        rw [number] at source
        simp only [attemptBinds, Bool.and_eq_true, decide_eq_true_eq]
        exact ⟨⟨⟨⟨⟨⟨number, binds.operationKey⟩, binds.policyHash⟩, binds.kind⟩, source⟩, ordered⟩,
          binds.earlier⟩
      have continues : attemptLineage planHash controlVersion step (index + 1)
          attempt.sourceControlVersion attempt.retryNotBefore rest = .ok () := by
        apply ih (by omega) numberedRest (fun other member => repeats other (by simp [member]))
        · intro next entered
          cases rest with
          | nil => simp at entered
          | cons other later =>
              simp only [List.head?_cons, Option.mem_some_iff] at entered
              subst entered
              have retries := (List.isChain_cons_cons.mp chained).1
              rw [if_neg (by omega)]
              exact ⟨retries.ordered, retries.eligible, retries.waited⟩
        · exact (List.isChain_cons.mp chained).2
      have superseded : rest ≠ [] → attempt.outcome = some .transientFailure ∧
          attempt.retryNotBefore ≠ none ∧ attempt.terminalReasonCode = none := by
        intro followed
        cases rest with
        | nil => exact absurd rfl followed
        | cons next later =>
            have retries := (List.isChain_cons_cons.mp chained).1
            exact ⟨retries.failed, by simp [retries.eligible], retries.unended⟩
      simp only [attemptLineage, bind_ok, require_ok]
      refine ⟨(), bound, ?_⟩
      have remaining : (if rest ≠ [] then do
            require (attempt.outcome = some .transientFailure ∧ attempt.retryNotBefore ≠ none ∧
              attempt.terminalReasonCode = none) "ValueError"
              "superseded READ attempt lacks retry authority"
            attemptLineage planHash controlVersion step (index + 1) attempt.sourceControlVersion
              attempt.retryNotBefore rest
          else attemptLineage planHash controlVersion step (index + 1) attempt.sourceControlVersion
            attempt.retryNotBefore rest) = .ok () := by
        split
        · rename_i followed
          exact bind_ok.mpr ⟨(), require_ok.mpr (superseded followed), continues⟩
        · exact continues
      split
      · rename_i entered
        rw [if_pos entered] at eligible
        exact bind_ok.mpr ⟨(), require_ok.mpr eligible, remaining⟩
      · rename_i later
        rw [if_neg later] at eligible
        exact bind_ok.mpr ⟨(), require_ok.mpr eligible, remaining⟩

end Classifier

namespace AttemptLineage

variable {step now : RunStep} {operation : Operation} {controlVersion later : Nat}
variable {attempt : ExecutionAttempt}

theorem repeats (lineage : AttemptLineage step operation controlVersion)
    (binds : operationBindsStep operation.policy step) (executing : step.state = .executing)
    (member : attempt ∈ operation.attempts) :
      attempt.Repeats step.planHash controlVersion step := by
  simp only [operationBindsStep, Bool.and_eq_true, decide_eq_true_eq] at binds
  have bound := lineage.history.bound attempt member
  exact ⟨bound.operationKey.trans binds.1.1.1.1.1.1.1.1, bound.policyHash.trans binds.1.1.1.1.2,
    bound.kind.trans binds.1.1.1.1.1.1.1.2, lineage.sourced executing attempt member, bound.earlier⟩

theorem latest_disposition (lineage : AttemptLineage step operation controlVersion)
    (executing : step.state = .executing) (last : operation.attempts.getLast? = some attempt) :
    ∃ disposition, latestDisposition attempt = .ok disposition := by
  unfold latestDisposition
  rcases lineage.latest executing attempt last with isOpen | retry
  · exact ⟨.open, by simp [ExecutionAttempt.outcome, isOpen]⟩
  · obtain ⟨failed, unended⟩ := lineage.history.retryable attempt (List.mem_of_getLast? last) retry
    exact ⟨.retryBackoff, by simp [failed, unended, retry]⟩

/-- The classifier accepts the lineage of every executing step. -/
theorem classified {db : Database} (lineage : AttemptLineage step operation controlVersion)
    (found : db.operations.get? stepId = some operation) (callable : step.callable)
    (binds : operationBindsStep operation.policy step) (executing : step.state = .executing) :
    ∃ disposition, db.executingReadDisposition step.planHash controlVersion stepId step =
      .ok disposition := by
  obtain ⟨attempted, version⟩ := lineage.started executing
  have last := List.getLast?_eq_some_getLast attempted
  obtain ⟨disposition, accepted⟩ := lineage.latest_disposition executing last
  have bound := binds
  simp only [operationBindsStep, Bool.and_eq_true, decide_eq_true_eq] at bound
  simp only [RunStep.callable, Bool.and_eq_true, decide_eq_true_eq] at callable
  have listed : db.listAttempts stepId step.runtimePolicy.operationKey =
      .ok operation.attempts := by
    have lookup : db.operation? stepId step.runtimePolicy.operationKey = some operation :=
      Database.operation?_eq_some.mpr ⟨found, bound.1.1.1.1.1.1.1.1⟩
    simp only [Database.listAttempts, lookup, Option.map_some, Option.getD_some,
      bind_ok, require_ok, pure_ok]
    exact ⟨(), lineage.history.numbered, trivial⟩
  have calls : step.runtimePolicy.attemptKind ∈ [.model, .tool] := by
    cases kind : step.runtimePolicy.attemptKind with
    | noCall => exact absurd kind callable.2
    | model | tool => simp
  have within : operation.attempts.length ≤ step.runtimePolicy.maxAttempts :=
    bound.1.1.1.2 ▸ lineage.history.withinLimit
  have enters : ∀ attempt ∈ operation.attempts.head?, 0 < attempt.sourceControlVersion ∧
      if 1 = 1 then attempt.eligibleAt = attempt.reservedAt
      else none = some attempt.eligibleAt ∧ attempt.eligibleAt ≤ attempt.reservedAt :=
          fun attempt entered =>
    ⟨(lineage.history.bound attempt (List.mem_of_head? entered)).positive,
      by rw [if_pos rfl]; exact lineage.history.first attempt entered⟩
  have chain := attemptLineage_ok (Nat.le_refl 1) lineage.history.numbered
    (fun _ member => lineage.repeats binds executing member) enters lineage.history.chained
  simp only [Database.executingReadDisposition, bind_ok, require_ok, requireSome_ok]
  exact ⟨disposition, (), ⟨trivial, callable.1, executing, calls, version⟩,
    operation.attempts, listed, (), ⟨attempted, within⟩, (), chain, _, last, accepted⟩

theorem mono (lineage : AttemptLineage step operation controlVersion)
    (newer : controlVersion ≤ later) :
    AttemptLineage step operation later :=
  { lineage with history := lineage.history.mono newer }

theorem fresh (unattempted : operation.attempts = []) (version : step.version = 1)
    (pending : step.state = .pending) : AttemptLineage step operation controlVersion where
  history := .empty unattempted
  positive := by omega
  queued := fun _ => unattempted
  started := by simp [pending]
  sourced := by simp [unattempted]
  latest := by simp [unattempted]

theorem moved (lineage : AttemptLineage step operation controlVersion)
    (read : step.effect = .read) (advanced : step.Advanced command now)
    (unstarted : command ≠ .start) :
    AttemptLineage now operation controlVersion := by
  have target := advanced.moved
  have notExecuting : now.state ≠ .executing := by
    intro executing
    cases command <;> simp_all [StepLifecycleCommand.Moves]
  refine {
    history := lineage.history
    positive := by rw [advanced.version]; omega
    queued := ?_
    started := fun executing => absurd executing notExecuting
    sourced := fun executing => absurd executing notExecuting
    latest := fun executing => absurd executing notExecuting }
  intro waiting
  refine lineage.queued ?_
  cases command <;> simp_all [StepLifecycleCommand.Moves]

theorem closed {command : StepLifecycleCommand} (history : operation.AttemptHistory controlVersion)
    (ends : command ∈ [.succeed, .fail, .reject, .cancel, .skip])
    (advanced : step.Advanced command now) :
    AttemptLineage now operation controlVersion := by
  have finished : now.state ∉ [.pending, .ready, .executing] := by
    have target := advanced.moved
    cases command <;> simp_all [StepLifecycleCommand.Moves]
  simp only [List.mem_cons, List.not_mem_nil, or_false, not_or] at finished
  exact {
    history
    positive := by rw [advanced.version]; omega
    queued := by simp [finished.1, finished.2.1]
    started := fun executing => absurd executing finished.2.2
    sourced := fun executing => absurd executing finished.2.2
    latest := fun executing => absurd executing finished.2.2 }

theorem reserve_first (lineage : AttemptLineage step operation controlVersion)
    (history : Operation.AttemptHistory { operation with
      attempts := operation.attempts ++ [attempt] } later)
    (isOpen : attempt.completion = none) (number : attempt.attemptNumber = 1)
    (source : attempt.sourceStepVersion = step.version) (advanced : step.Advanced .start now) :
    AttemptLineage now { operation with attempts := operation.attempts ++ [attempt] } later := by
  have unattempted := lineage.queued (by simp [advanced.moved.1])
  have executing : now.state = .executing := advanced.moved.2.2
  have positive := lineage.positive
  have version := advanced.version
  refine {
    history
    positive := by omega
    queued := by simp [executing]
    started := fun _ => ⟨by simp, by omega⟩
    sourced := ?_
    latest := by simp [isOpen] }
  intro _ other member
  simp only [unattempted, List.nil_append, List.mem_singleton] at member
  subst member
  rw [if_pos number, source]
  omega

theorem reserve_retry (lineage : AttemptLineage step operation controlVersion)
    (history : Operation.AttemptHistory { operation with
      attempts := operation.attempts ++ [attempt] } later)
    (isOpen : attempt.completion = none) (number : attempt.attemptNumber ≠ 1)
    (source : attempt.sourceStepVersion = step.version) (executing : step.state = .executing) :
    AttemptLineage step { operation with attempts := operation.attempts ++ [attempt] } later where
  history
  positive := lineage.positive
  queued := by simp [executing]
  started := fun _ => ⟨by simp, (lineage.started executing).2⟩
  sourced := by
    intro _ other member
    rcases List.mem_append.mp member with old | new
    · exact lineage.sourced executing other old
    · obtain rfl := List.mem_singleton.mp new
      rw [if_neg number, source]
  latest := by simp [isOpen]

theorem retried {completion : AttemptCompletion}
    (lineage : AttemptLineage step operation controlVersion)
    (member : attempt ∈ operation.attempts) (isOpen : attempt.completion = none)
    (retryable : completion.retryNotBefore ≠ none →
      completion.outcome = .transientFailure ∧ completion.terminalReasonCode = none)
    (allowed : completion.retryNotBefore ≠ none) :
    AttemptLineage step (operation.finish attempt.id completion) controlVersion := by
  obtain ⟨earlier, split⟩ := lineage.history.open_is_last member isOpen
  have finished := lineage.history.finish_open split completion
  refine {
    history := lineage.history.finish member isOpen retryable
    positive := lineage.positive
    queued := fun waiting => ?_
    started := fun executing => ⟨by simp [finished], (lineage.started executing).2⟩
    sourced := fun executing other listed => ?_
    latest := fun _ other last => ?_ }
  · have empty := lineage.queued waiting
    simp [split] at empty
  · rw [finished] at listed
    rcases List.mem_append.mp listed with old | new
    · exact lineage.sourced executing other (by simp [split, old])
    · obtain rfl := List.mem_singleton.mp new
      exact lineage.sourced executing attempt member
  · simp only [finished, List.getLast?_append, List.getLast?_singleton, Option.some_or,
      Option.mem_some_iff] at last
    subst last
    exact .inr (by simpa [ExecutionAttempt.retryNotBefore] using allowed)

end AttemptLineage

end MarketingAgents
