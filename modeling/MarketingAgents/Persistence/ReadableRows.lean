import MarketingAgents.Persistence.ApprovalBarrier

namespace MarketingAgents

open Library

/-! # Rows that stay readable

What the delivery of released actions and the transitions of a run and its steps
keep of the rows that the approval reader checks.
-/

theorem StoredAction.DeliveryHistory.attemptExact {stored : StoredAction}
    (history : stored.DeliveryHistory) :
    stored.attemptExact := by
  unfold StoredAction.attemptExact
  cases held : stored.action.lease with
  | none => rfl
  | some lease =>
      obtain ⟨number, positive⟩ := stored.action.lease_attempt held
      have listed : lease.attemptNumber ∈ stored.attemptNumbers := by
        rw [history.numbered, List.mem_range'_1]
        omega
      have distinct : (stored.attempts.map (·.attemptNumber)).Nodup := by
        have numbers : stored.attemptNumbers.Nodup := by
          rw [history.numbered]
          exact List.nodup_range'
        exact numbers
      obtain ⟨attempt, member, same⟩ := List.mem_map.mp listed
      have mirrored := history.current lease held attempt member (same.trans number)
      have only : stored.attempts.filter (·.attemptNumber = lease.attemptNumber) = [attempt] := by
        rw [← same]
        exact filter_key_eq_singleton distinct member
      simp [only, history.supported attempt member, mirrored.owner, mirrored.claimedAt,
        mirrored.expiresAt, mirrored.call, mirrored.unfinished]

/-- A consistent transition from the end of a history extends it. -/
theorem historyExact_append {createdAt : Time}
    {result : StepTransitionResult} (exact_ : historyExact createdAt step history)
    (consistent : result.consistent) (previous : result.transition.previousState = some step.state)
    (version : result.transition.expectedVersion = step.version) {updated : RunStep}
    (state : updated.state = result.step.state)
    (updatedAt : updated.updatedAt = result.step.updatedAt)
    (resulting : updated.version = result.step.version)
    (reason : updated.terminalReasonCode = result.step.terminalReasonCode) :
    historyExact createdAt updated (history ++ [result.transition]) := by
  simp only [historyExact, Bool.and_eq_true, decide_eq_true_eq, List.all_eq_true,
    Option.any_eq_true, Option.all_eq_true] at exact_ ⊢
  simp only [StepTransitionResult.consistent, Bool.and_eq_true, decide_eq_true_eq] at consistent
  obtain ⟨⟨⟨⟨⟨first, head, opened⟩, numbered⟩, sequences⟩, linked⟩, last, ends,
    ⟨⟨sameState, sameVersion⟩, _⟩, _⟩ := exact_
  obtain ⟨⟨⟨⟨⟨⟨⟨⟨⟨sequence, result_⟩, newState⟩, newVersion⟩, occurred⟩, terminal⟩, closed⟩, _⟩, _⟩,
    _⟩ :=
    consistent
  have shape : history = history.dropLast ++ [last] :=
    (List.dropLast_append_getLast? last ends).symm
  have length : step.version = history.length := by
    have lastNumber : last.sequence = step.version :=
      (sequences last (List.mem_of_getLast? ends)).trans sameVersion
    have final : (history.map (·.sequence)).getLast? = some last.sequence := by
      rw [List.getLast?_map, ends]
      rfl
    rw [numbered, List.getLast?_range'] at final
    split at final
    · cases final
    · have highest := Option.some.inj final
      omega
  refine ⟨⟨⟨⟨⟨first, ?_, opened⟩, ?_⟩, ?_⟩, ?_⟩, result.transition, ?_, ⟨⟨?_, ?_⟩, ?_⟩, ?_⟩
  · rw [List.head?_append, head]
    rfl
  · rw [List.map_append, numbered, List.length_append, List.map_singleton, List.length_singleton,
      List.range'_1_concat, sequence, result_, version, length, Nat.add_comm 1]
  · intro transition listed
    rcases List.mem_append.mp listed with old | new
    · exact sequences transition old
    · rw [List.mem_singleton.mp new]
      exact sequence
  · have nonempty : history ≠ [] := by
      intro empty
      rw [empty] at head
      cases head
    rw [List.dropLast_concat, List.drop_append_of_le_length (List.length_pos_iff.mpr nonempty),
      List.map_append, linked, List.map_singleton, previous]
    conv_rhs => rw [shape, List.map_append, List.map_singleton, sameState]
  · simp
  · rw [state, newState]
  · rw [resulting, newVersion]
  · rw [updatedAt, occurred]
  · intro code named
    rw [reason] at named
    rw [closed, named, Option.isSome_some] at terminal
    simpa [named] using terminal

/-- A later row of the same planned step. -/
def RunStep.Follows (before after : RunStep) : Prop :=
  ∃ state updatedAt version terminalReasonCode, before.version ≤ version ∧
    after = { before with state, updatedAt, version, terminalReasonCode }

theorem RunStep.Follows.refl (step : RunStep) : step.Follows step :=
  ⟨_, _, _, _, Nat.le_refl _, rfl⟩

/-- A later row of an action: unchanged, or delivered in exact agreement with its attempts. -/
def StoredAction.Follows (before after : StoredAction) : Prop :=
  after = before ∨ before.Delivered after ∧ after.attemptExact

theorem StoredAction.Follows.contract {before after : StoredAction}
    (followed : before.Follows after) :
    after.action.contract = before.action.contract := by
  rcases followed with rfl | ⟨delivered, _⟩
  · rfl
  · exact delivered.contract

/-- Later rows of one run, in every respect that the approval reader checks. -/
structure Database.RowsFollow (db after : Database) : Prop where
  runVersion : db.run.version ≤ after.run.version
  runTransitions : ∀ sequence transition, db.runTransitions.find? (·.sequence = sequence) =
    some transition →
    after.runTransitions.find? (·.sequence = sequence) = some transition
  steps : Table.Related RunStep.Follows db.steps after.steps
  stepTransitions : ∀ stepId version transition,
    db.stepTransition? stepId version = some transition →
    after.stepTransition? stepId version = some transition
  histories : ∀ createdAt stepId before step, db.step? stepId = some before →
    after.step? stepId = some step →
    historyExact createdAt before (db.stepTransitions.filter (·.stepId = stepId)) →
    historyExact createdAt step (after.stepTransitions.filter (·.stepId = stepId))
  actions : Table.Related StoredAction.Follows db.actions after.actions

theorem find?_append_some {α : Type} {test : α → Bool} {left right : List α} {found : α}
    (located : left.find? test = some found) : (left ++ right).find? test = some found := by
  rw [List.find?_append, located]
  rfl

namespace Database

variable {db after : Database}

/-- Rows whose steps moved at most once, beside runs and actions that follow. -/
theorem RowsFollow.of_parts (run : db.run.version ≤ after.run.version)
    (runTransitions : ∀ sequence transition,
      db.runTransitions.find? (·.sequence = sequence) = some transition →
      after.runTransitions.find? (·.sequence = sequence) = some transition)
    (moved : db.StepMoved after)
    (actions : Table.Related StoredAction.Follows db.actions after.actions) :
      db.RowsFollow after := by
  rcases moved with ⟨steps, transitions⟩ |
    ⟨runVersion, runState, stepVersion, stepState, result, stepped, applied, consistent,
      steps, transitions⟩
  · refine ⟨run, runTransitions, ?_, ?_, ?_, actions⟩
    · rw [steps]
      exact .refl RunStep.Follows.refl _
    · intro stepId version transition found
      rw [stepTransition?, transitions]
      exact found
    · intro createdAt stepId before step found lookup exact_
      rw [step?, steps] at lookup
      obtain rfl := Option.mem_unique found lookup
      rw [transitions]
      exact exact_
  · obtain ⟨current, present, expected, previous, _, _, version, state, rfl⟩ :=
      applyStepTransition_effect applied
    have counts : result.step.version = current.version + 1 := by
      simp only [StepTransitionResult.consistent, Bool.and_eq_true, decide_eq_true_eq] at consistent
      obtain ⟨⟨⟨⟨⟨⟨⟨⟨⟨_, resulting⟩, _⟩, newVersion⟩, _⟩, _⟩, _⟩, _⟩, _⟩, _⟩ := consistent
      rw [newVersion, resulting, expected, version]
    refine ⟨run, runTransitions, ?_, ?_, ?_, actions⟩
    · rw [steps]
      exact .of_set RunStep.Follows.refl present ⟨_, _, _, _, by omega, rfl⟩
    · intro stepId version transition found
      rw [stepTransition?, transitions]
      exact find?_append_some found
    · intro createdAt stepId before step found lookup exact_
      rw [transitions]
      rw [step?, steps] at lookup
      simp only [List.filter_append]
      by_cases same : result.transition.stepId = stepId
      · subst same
        obtain rfl := Option.mem_unique present found
        obtain rfl := Option.some.inj ((Table.get?_set_self present).symm.trans lookup)
        simp only [decide_true, List.filter_cons_of_pos, List.filter_nil]
        exact historyExact_append exact_ consistent (by rw [previous, state])
          (by rw [expected, version])
          rfl rfl rfl rfl
      · have unchanged : step = before := by
          have kept := (Table.get?_set_ne (fun equal => same equal.symm)).symm.trans lookup
          exact Option.mem_unique kept found
        simpa [same, unchanged] using exact_

theorem RowsFollow.of_applyStepTransition {runVersion stepVersion : Nat}
    {result : StepTransitionResult} (consistent : result.consistent)
    (applied : db.applyStepTransition runVersion runState stepVersion stepState result =
      some after) :
    db.RowsFollow after := by
  have moved : db.StepMoved after := .inr ⟨_, _, _, _, result, after, applied, consistent, rfl, rfl⟩
  obtain ⟨_, _, _, _, _, _, _, _, rfl⟩ := applyStepTransition_effect applied
  exact .of_parts (Nat.le_refl _) (fun _ _ found => found) moved (.refl (fun _ => .inl rfl) _)

theorem RowsFollow.of_applyRunTransition {expectedVersion : Nat} {expectedState : RunState}
    {result : RunTransitionResult} (consistent : result.consistent)
    (applied : db.applyRunTransition expectedVersion expectedState result = some after) :
    db.RowsFollow after := by
  simp only [applyRunTransition, bind, Option.bind_eq_some_iff, Option.guard_eq_some', exists_const,
    Option.pure_def, Option.some.injEq] at applied
  obtain ⟨⟨expected, _⟩, ⟨version, _⟩, rfl⟩ := applied
  simp only [RunTransitionResult.consistent, Bool.and_eq_true, decide_eq_true_eq] at consistent
  obtain ⟨⟨⟨⟨_, resulting⟩, _⟩, newVersion⟩, _⟩ := consistent
  refine .of_parts ?_ (fun _ _ found => find?_append_some found) (.inl ⟨rfl, rfl⟩)
    (.refl (fun _ => .inl rfl) _)
  show db.run.version ≤ result.run.version
  omega

theorem RowsFollow.of_delivered
    (moved : db.ActionDelivered actionId stored updated after) (exact_ : updated.attemptExact) :
    db.RowsFollow after := by
  refine .of_parts ?_ ?_ moved.steps ?_
  · rw [moved.run]
  · intro sequence transition found
    rw [moved.runTransitions]
    exact found
  · rw [moved.actions]
    exact .of_set (fun _ => .inl rfl) moved.found (.inr ⟨moved.delivered, exact_⟩)

end Database

end MarketingAgents
