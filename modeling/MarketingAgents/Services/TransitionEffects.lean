import MarketingAgents.Persistence.ActionEffects
import MarketingAgents.Services.Transitions

namespace MarketingAgents

open Library

/-! # What accepted step and run transitions changed -/

/-- The states that a command leads from and to, with the effect it is for. -/
def StepLifecycleCommand.Moves (command : StepLifecycleCommand) (step : RunStep)
    (newState : StepState) :
    Prop :=
  match command with
  | .initializeStep => False
  | .markReady => step.state = .pending ∧ step.effect = .read ∧ newState = .ready
  | .waitForApproval => step.state = .pending ∧ step.effect = .write ∧ newState = .awaitingApproval
  | .releaseApproval => step.state = .awaitingApproval ∧ step.effect = .write ∧ newState = .ready
  | .start => step.state = .ready ∧ step.effect = .read ∧ newState = .executing
  | .startReservedWrite => step.state = .ready ∧ step.effect = .write ∧ newState = .executing
  | .succeed => step.state = .executing ∧ newState = .succeeded
  | .fail => step.state ∈ [.ready, .executing] ∧ newState = .failed
  | .reject => step.state = .awaitingApproval ∧ newState = .rejected
  | .cancel => step.state ∈ [.pending, .ready, .awaitingApproval] ∧ newState = .cancelled
  | .skip => step.state ∈ [.pending, .ready, .awaitingApproval] ∧ newState = .skipped

section

variable {step : RunStep} {command : StepLifecycleCommand} {context : StepTransitionContext}
variable {newState : StepState} {reasonCode message fixed : String} {legal : Prop} [Decidable legal]
variable {target : StepState}

theorem plainTransition_ok
    (accepted : plainTransition context legal target fixed message = .ok (newState, reasonCode)) :
    legal ∧ newState = target := by
  unfold plainTransition at accepted
  split at accepted
  · rename_i checks
    cases accepted
    exact ⟨checks.1, rfl⟩
  · cases accepted

theorem terminalTransition_ok
    (accepted : terminalTransition context legal target message = .ok (newState, reasonCode)) :
    legal ∧ newState = target := by
  unfold terminalTransition at accepted
  split at accepted
  · cases accepted
  · split at accepted
    · rename_i checks
      cases accepted
      exact ⟨checks, rfl⟩
    · cases accepted

theorem nextStepState_moves
    (accepted : nextStepState step command context = .ok (newState, reasonCode)) :
    command.Moves step newState := by
  cases command with
  | initializeStep => cases accepted
  | markReady | waitForApproval | releaseApproval | start | startReservedWrite =>
      obtain ⟨⟨state, effect⟩, target⟩ := plainTransition_ok accepted
      exact ⟨state, effect, target⟩
  | succeed => exact plainTransition_ok accepted
  | fail | reject | cancel | skip => exact terminalTransition_ok accepted

end

/-- One accepted command took a step from the first row to the second. -/
structure RunStep.Advanced (command : StepLifecycleCommand) (before after : RunStep) : Prop where
  live : before.state.terminal = false
  moved : command.Moves before after.state
  row : ∃ occurredAt reason, before.updatedAt ≤ occurredAt ∧ after = { before with
    state := after.state
    updatedAt := occurredAt
    version := before.version + 1
    terminalReasonCode := reason }

namespace RunStep.Advanced

variable {command : StepLifecycleCommand} {before after : RunStep}

theorem version (advanced : Advanced command before after) :
    after.version = before.version + 1 := by
  obtain ⟨_, _, _, row⟩ := advanced.row
  rw [row]

theorem identity (advanced : Advanced command before after) :
    after.key = before.key ∧ after.effect = before.effect ∧
      after.dependencyKeys = before.dependencyKeys ∧ after.planHash = before.planHash ∧
      after.runtimePolicy = before.runtimePolicy := by
  obtain ⟨_, _, _, row⟩ := advanced.row
  rw [row]
  exact ⟨rfl, rfl, rfl, rfl, rfl⟩

end RunStep.Advanced

variable {stepId : String} {step : RunStep} {command : StepLifecycleCommand}
variable {context : StepTransitionContext} {occurredAt : Time} {result : StepTransitionResult}
variable {db after : Database} {run : Run} {code message : String}

theorem transitionStep_effect
    (transition : transitionStep stepId step command context occurredAt = .ok result) :
    step.Advanced command result.step ∧ result.transition.stepId = stepId ∧
      result.step.updatedAt = occurredAt := by
  simp only [transitionStep, bind_ok, require_ok, pure_ok, Prod.exists] at transition
  obtain ⟨_, ordered, _, live, newState, reasonCode, next, rfl⟩ := transition
  exact ⟨⟨live, nextStepState_moves next, occurredAt, _, ordered, rfl⟩, rfl, rfl⟩

namespace Database

theorem applyStepTransition_current {runVersion stepVersion : Nat}
    (applied : db.applyStepTransition runVersion runState stepVersion stepState result = some after)
    (found : db.step? stepId = some step) (moved : step.Advanced command result.step)
    (named : result.transition.stepId = stepId) :
    db.run.version = runVersion ∧ db.run.state = runState ∧ after = { db with
      steps := db.steps.set stepId result.step
      stepTransitions := db.stepTransitions ++ [result.transition] } := by
  obtain ⟨current, present, _, _, version, state, _, _, rfl⟩ := applyStepTransition_effect applied
  rw [named] at present
  obtain rfl : step = current := Option.mem_unique found present
  refine ⟨version, state, ?_⟩
  obtain ⟨_, _, _, row⟩ := moved.row
  rw [named, storeStep, row]

theorem advanceStep_effect
    (advanced : db.advanceStep run stepId step command context occurredAt code message =
      .ok (result, after)) (found : db.step? stepId = some step) :
    step.Advanced command result.step ∧ result.step.updatedAt = occurredAt ∧
      db.run.version = run.version ∧ db.run.state = run.state ∧
      after = { db with
        steps := db.steps.set stepId result.step
        stepTransitions := db.stepTransitions ++ [result.transition] } := by
  simp only [advanceStep, bind_ok, requireSome_ok, pure_ok, Prod.mk.injEq] at advanced
  obtain ⟨_, transition, _, applied, rfl, rfl⟩ := advanced
  obtain ⟨moved, named, instant⟩ := transitionStep_effect transition
  exact ⟨moved, instant, applyStepTransition_current applied found moved named⟩

theorem mem_stepsWhere {test : String → RunStep → Bool} {entry : String × RunStep} :
    entry ∈ db.stepsWhere test ↔ db.step? entry.1 = some entry.2 ∧ test entry.1 entry.2 := by
  rw [stepsWhere, List.mem_filter, step?, Table.get?_eq_some_iff]

theorem stepsWhere_distinct {test : String → RunStep → Bool} :
    ((db.stepsWhere test).map Prod.fst).Nodup :=
  db.steps.nodup.sublist (List.filter_sublist.map _)

end Database

/-- The states that a run command leads from and to. -/
def RunLifecycleCommand.Moves (command : RunLifecycleCommand) (before after : Run) : Prop :=
  match command with
  | .receive => False
  | .markValidated => before.state = .received ∧ after.state = .validated ∧
      after.approvalRequired = before.approvalRequired
  | .recordPlan =>
      before.state = .validated ∧ after.state = .planned ∧ after.approvalRequired.isSome
  | .activatePlan => before.state = .planned ∧
      after.approvalRequired = before.approvalRequired ∧
      after.state = if before.approvalRequired = some true then .awaitingApproval else .executing
  | .releaseApprovedPlan => before.state = .awaitingApproval ∧ after.state = .executing ∧
      after.approvalRequired = before.approvalRequired
  | .rejectApproval => before.state = .awaitingApproval ∧ after.state = .rejected ∧
      after.approvalRequired = before.approvalRequired
  | .complete => before.state = .executing ∧ after.state = .completed ∧
      after.approvalRequired = before.approvalRequired
  | .fail => after.state = .failed ∧ after.approvalRequired = before.approvalRequired
  | .cancel => after.state = .cancelled ∧ after.approvalRequired = before.approvalRequired

/-- One accepted command took a run from the first row to the second. -/
structure Run.Advanced (command : RunLifecycleCommand) (before after : Run) : Prop where
  live : before.state.terminal = false
  moved : command.Moves before after
  version : after.version = before.version + 1
  created : after.createdAt = before.createdAt

theorem transitionRun_effect
    (transition : transitionRun before runCommand runContext occurredAt = .ok runResult) :
    before.Advanced runCommand runResult.run := by
  simp only [transitionRun, bind_ok, require_ok, pure_ok, Prod.exists] at transition
  obtain ⟨_, _, _, live, newState, reasonCode, approvalRequired, next, rfl⟩ := transition
  refine ⟨live, ?_, rfl, rfl⟩
  unfold nextRunState at next
  split at next <;> try cases next
  all_goals
    split at next <;> try cases next
  all_goals
    try split at next <;> try cases next
  all_goals simp_all [RunLifecycleCommand.Moves]

theorem Database.advanceRun_effect {runResult : RunTransitionResult}
    (advanced : db.advanceRun runCommand runContext occurredAt code message =
      .ok (runResult, after)) :
    db.run.Advanced runCommand runResult.run ∧ after = { db with
      run := runResult.run
      runTransitions := db.runTransitions ++ [runResult.transition] } := by
  simp only [advanceRun, bind_ok, requireSome_ok, pure_ok, Prod.mk.injEq] at advanced
  obtain ⟨_, transition, _, applied, rfl, rfl⟩ := advanced
  simp only [applyRunTransition, bind, Option.bind_eq_some_iff, Option.guard_eq_some', exists_const,
    Option.pure_def, Option.some.injEq] at applied
  obtain ⟨_, _, rfl⟩ := applied
  have moved := transitionRun_effect transition
  refine ⟨moved, ?_⟩
  rw [← moved.created]

/-- Every selected step took one command and every other step was left alone. -/
structure StepsAdvanced (command : StepLifecycleCommand) (selected : List (String × RunStep))
    (before after : Table String RunStep) : Prop where
  keys : after.keys = before.keys
  moved : ∀ entry ∈ selected, ∃ step, after.get? entry.1 = some step ∧ entry.2.Advanced command step
  others : ∀ stepId, stepId ∉ selected.map Prod.fst → after.get? stepId = before.get? stepId

theorem advanceSteps_effect {results : List StepTransitionResult}
    (advanced : advanceSteps run command context occurredAt code message selected db =
      .ok (results, after))
    (distinct : (selected.map Prod.fst).Nodup)
    (current : ∀ entry ∈ selected, db.step? entry.1 = some entry.2) :
    ∃ steps stepTransitions, after = { db with steps, stepTransitions } ∧
      StepsAdvanced command selected db.steps steps := by
  induction selected generalizing db results with
  | nil =>
      cases advanced
      exact ⟨_, _, rfl, rfl, by simp, fun _ _ => rfl⟩
  | cons entry rest ih =>
      obtain ⟨stepId, step⟩ := entry
      simp only [List.map_cons, List.nodup_cons] at distinct
      simp only [advanceSteps, bind_ok, pure_ok, Prod.exists, Prod.mk.injEq] at advanced
      obtain ⟨result, moved, first, others, last, remaining, rfl, rfl⟩ := advanced
      have found : db.step? stepId = some step := current (stepId, step) (by simp)
      obtain ⟨advancedStep, _, _, _, rfl⟩ := Database.advanceStep_effect first found
      have differs : ∀ entry ∈ rest, entry.1 ≠ stepId := fun entry member same =>
        distinct.1 (same ▸ List.mem_map_of_mem member)
      obtain ⟨steps, stepTransitions, rfl, tail⟩ := ih remaining distinct.2 (by
        intro entry member
        rw [Database.step?, Table.get?_set found, if_neg (differs entry member)]
        exact current entry (by simp [member]))
      refine ⟨steps, stepTransitions, rfl, ?_, ?_, ?_⟩
      · rw [tail.keys, Table.keys_set]
      · intro entry member
        rcases List.mem_cons.mp member with rfl | later
        · refine ⟨result.step, ?_, advancedStep⟩
          rw [tail.others stepId distinct.1]
          exact Table.get?_set_self found
        · exact tail.moved entry later
      · intro other unselected
        simp only [List.map_cons, List.mem_cons, not_or] at unselected
        rw [tail.others other unselected.2]
        exact Table.get?_set_ne unselected.1

end MarketingAgents
