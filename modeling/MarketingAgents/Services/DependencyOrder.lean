import MarketingAgents.Services.ActionEvents
import MarketingAgents.Services.LineageAccepted

namespace MarketingAgents

open Library

/-! # Dependency order

A READ step is readied only after its dependencies, and a WRITE step is started
only after them: its release makes it READY without looking.  Since a step that
succeeded never changes again, the order holds from then on.
-/

/-- The steps that are allowed to run once their dependencies have succeeded. -/
def RunStep.underway (step : RunStep) : Bool :=
  step.state ∈ [.executing, .succeeded] || step.effect = .read && step.state = .ready

/-- Nothing of a step has started before the steps that it depends on have succeeded. -/
structure DependencyOrder (db : Database) : Prop where
  distinct : ∀ stepId step otherId other, db.step? stepId = some step →
    db.step? otherId = some other →
    step.key = other.key → stepId = otherId
  steps : ∀ stepId step, db.step? stepId = some step → step.underway → db.DependenciesSucceeded step
  attempts : ∀ stepId operation step, db.operations.get? stepId = some operation →
    operation.attempts ≠ [] → db.step? stepId = some step → db.DependenciesSucceeded step
  calls : ∀ actionId stored step, db.action? actionId = some stored → stored.called →
    db.step? stored.action.contract.stepId = some step → db.DependenciesSucceeded step

section

variable {db after : Database} {commit : Commit} {stepId : String} {step now : RunStep}

theorem Committed.dependencies_kept (binding : PlanBinding db)
    (committed : Committed db commit after)
    (established : commit ≠ .planPersisted) (same : now.dependencyKeys = step.dependencyKeys)
    (succeeded : db.DependenciesSucceeded step) : after.DependenciesSucceeded now := by
  intro key listed
  rw [same] at listed
  obtain ⟨otherId, other, found, named, state⟩ := succeeded key listed
  obtain ⟨later, lookup, event⟩ := committed.stepEvent binding established found
  obtain rfl := event.terminal_kept (by simp [state, StepState.terminal])
  exact ⟨otherId, later, lookup, named, state⟩

theorem StepEvent.underway_dependencies (event : StepEvent db commit stepId step now)
    (ordered : step.underway → db.DependenciesSucceeded step) (underway : now.underway) :
    db.DependenciesSucceeded step := by
  have ready : step.state = .ready → step.effect = .read → db.DependenciesSucceeded step :=
    fun state effect => ordered (by simp [RunStep.underway, state, effect])
  cases event with
  | kept => exact ordered underway
  | readied _ dependencies | called _ dependencies => exact dependencies
  | released advanced =>
      obtain ⟨_, write, state⟩ := advanced.moved
      simp [RunStep.underway, state, advanced.identity.2.1, write] at underway
  | started advanced | attempted advanced => exact ready advanced.moved.1 advanced.moved.2.1
  | executed start _ _ independent =>
      intro key listed
      simp [independent] at listed
  | @closed command _ ends advanced =>
      have target := advanced.moved
      cases command with
      | succeed => exact ordered (by simp [RunStep.underway, target.1])
      | fail | reject | cancel | skip => simp [RunStep.underway, target.2] at underway
      | _ => simp at ends

theorem ReadReserved.underway (reserved : ReadReserved db stepId attempt after)
    (found : db.step? stepId = some step) : step.underway := by
  have change := reserved.step
  generalize after.steps = steps at change
  cases change with
  | first present _ _ advanced =>
      obtain rfl := Option.mem_unique found present
      simp [RunStep.underway, advanced.moved.1, advanced.moved.2.1]
  | retry present _ _ executing =>
      obtain rfl := Option.mem_unique found present
      simp [RunStep.underway, executing]

namespace DependencyOrder

theorem of_received (received : Received db) : DependencyOrder db where
  distinct := by simp [Database.step?, received.steps]
  steps := by simp [Database.step?, received.steps]
  attempts := by simp [received.operations]
  calls := by simp [Database.action?, received.actions]

theorem persisted (persisted : PlanPersisted db plan after) (sound : Sound db) :
    DependencyOrder after where
  distinct := by
    intro stepId step otherId other found lookup same
    obtain ⟨planned, present, plans⟩ := persisted.source found
    obtain ⟨again, listed, plansAgain⟩ := persisted.source lookup
    rw [RunStep.key_of_plan plans, RunStep.key_of_plan plansAgain] at same
    have equal := List.inj_on_of_nodup_map plan.keysDistinct (Table.mem_entries_of_get? present)
      (Table.mem_entries_of_get? listed) same
    exact congrArg Prod.fst equal
  steps := by
    intro stepId step found underway
    rcases persisted.step_waits found with pending | ⟨waiting, effect⟩
    · simp [RunStep.underway, pending] at underway
    · simp [RunStep.underway, waiting] at underway
  attempts := by
    intro stepId operation step found attempted
    rw [persisted.operations] at found
    exact absurd (plan.operation_fresh found).1 attempted
  calls := by
    intro actionId stored step found called
    have undecided := sound.undecided (by simp [persisted.validated])
    simp [StoredAction.called,
      (persisted.action_fresh (sound.binding.unplanned undecided).2.2.1 found).2]
      at called

theorem preserved (ordered : DependencyOrder db) (sound : Sound db)
    (committed : Committed db commit after) :
    DependencyOrder after := by
  by_cases established : commit ≠ .planPersisted
  · have plan := committed.samePlan established
    have kept : ∀ {stepId step now}, db.step? stepId = some step → now.plan = step.plan →
        db.DependenciesSucceeded step → after.DependenciesSucceeded now := fun _ same =>
      committed.dependencies_kept sound.binding established (RunStep.dependencyKeys_of_plan same)
    refine { distinct := ?_, steps := ?_, attempts := ?_, calls := ?_ }
    · intro stepId step otherId other found lookup same
      obtain ⟨before, present, plans⟩ := plan.steps.source found
      obtain ⟨former, listed, plansFormer⟩ := plan.steps.source lookup
      rw [RunStep.key_of_plan plans, RunStep.key_of_plan plansFormer] at same
      exact ordered.distinct stepId before otherId former present listed same
    · intro stepId now lookup underway
      obtain ⟨step, found, plans⟩ := plan.steps.source lookup
      obtain ⟨again, same, event⟩ := committed.stepEvent sound.binding established found
      obtain rfl := Option.mem_unique lookup same
      exact kept found plans (event.underway_dependencies
        (ordered.steps stepId step found) underway)
    · intro stepId operation now present attempted lookup
      obtain ⟨step, found, plans⟩ := plan.steps.source lookup
      refine kept found plans ?_
      by_cases reserves : commit = .attemptReserved stepId
      · subst reserves
        cases committed with
        | attemptReserved reserved =>
            exact ordered.steps stepId step found (reserved.underway found)
      · obtain ⟨attempt, member⟩ := List.exists_mem_of_ne_nil _ attempted
        obtain ⟨before, earlier, _, listed, _⟩ | ⟨same, _⟩ :=
          committed.attempt_source established present member
        · exact ordered.attempts stepId before step earlier (List.ne_nil_of_mem listed) found
        · exact absurd same reserves
    · intro actionId stored now present called lookup
      obtain ⟨step, found, plans⟩ := plan.steps.source lookup
      refine kept found plans ?_
      obtain ⟨before, earlier, contract⟩ := plan.actions.source present
      obtain ⟨again, same, event⟩ := committed.actionEvent established earlier
      obtain rfl := Option.mem_unique present same
      rw [contract] at found
      rcases event.called_source called with already | ⟨authority, _, call, own⟩
      · exact ordered.calls actionId before step earlier already found
      · exact sound.binding.fence_dependencies call.fence (own ▸ found)
  · rw [not_not] at established
    subst established
    cases committed with
    | planPersisted persisted => exact .persisted persisted sound

theorem reachable {allowed : Database → ServiceTransaction → Prop}
    (reached : serviceMachine.ReachableWhere allowed db) : DependencyOrder db := by
  have both : Sound db ∧ DependencyOrder db := by
    refine reached.invariant (fun db => Sound db ∧ DependencyOrder db)
      (fun received => ⟨.of_received received, .of_received received⟩) ?_
    rintro db transaction after ⟨sound, ordered⟩ _ stepped
    obtain ⟨_, _, committed⟩ := sound.commits stepped
    exact ⟨sound.step committed, ordered.preserved sound committed⟩
  exact both.2

end DependencyOrder

/-- The steps that a step depends on are steps of its plan and have all succeeded. -/
structure DependenciesMet (db : Database) (step : RunStep) : Prop where
  planned : ∀ key ∈ step.dependencyKeys, ∃ otherId other, db.step? otherId = some other ∧
    other.key = key
  succeeded : ∀ otherId other, db.step? otherId = some other → other.key ∈ step.dependencyKeys →
    other.state = .succeeded

theorem DependencyOrder.met (ordered : DependencyOrder db)
    (succeeded : db.DependenciesSucceeded step) :
    DependenciesMet db step where
  planned := by
    intro key listed
    obtain ⟨otherId, other, found, named, _⟩ := succeeded key listed
    exact ⟨otherId, other, found, named⟩
  succeeded := by
    intro otherId other found listed
    obtain ⟨againId, again, lookup, named, state⟩ := succeeded other.key listed
    obtain rfl := ordered.distinct otherId other againId again found lookup named.symm
    obtain rfl := Option.mem_unique found lookup
    exact state

/-- Whatever the services do and in whatever order, a step that executes or has
succeeded has all its dependencies behind it, and so has every step with a READ
attempt or with a provider call that was started. -/
theorem dependency_order (reached : serviceMachine.Reachable db) :
    (∀ stepId step, db.step? stepId = some step → step.state ∈ [.executing, .succeeded] →
      DependenciesMet db step) ∧
    (∀ stepId step operation, db.step? stepId = some step →
      db.operations.get? stepId = some operation → operation.attempts ≠ [] →
        DependenciesMet db step) ∧
    ∀ actionId stored step, db.action? actionId = some stored → stored.called →
      db.step? stored.action.contract.stepId = some step → DependenciesMet db step := by
  have ordered := DependencyOrder.reachable reached
  refine ⟨?_, ?_, ?_⟩
  · intro stepId step found running
    exact ordered.met (ordered.steps stepId step found (by simp [RunStep.underway, running]))
  · intro stepId step operation found present attempted
    exact ordered.met (ordered.attempts stepId operation step present attempted found)
  · intro actionId stored step present called found
    exact ordered.met (ordered.calls actionId stored step present called found)

end

namespace PlannedRead

def draft : RunStep :=
  { step with
    key := "draft"
    dependencyKeys := ["research"]
    runtimePolicy := { policy with operationKey := "draft" } }

def draftOperation : Operation where
  policy := { operation.policy with operationKey := "draft" }
  attempts := []

/-- The research step and a draft that depends on it. -/
def chain : SealedPlan where
  planHash := "plan"
  steps := ⟨[("step", step), ("draft", draft)], by decide⟩
  operations := ⟨[("step", operation), ("draft", draftOperation)], by decide⟩
  control := { control with maxToolCalls := 2 }
  epoch := none
  nonempty := by simp
  stepsFresh := by decide
  keysDistinct := by decide
  dependenciesPlanned := by decide
  operationsBound := by decide
  controlFresh := by decide
  readOnly := by decide
  approvalBound := by simp

def found : ReadOutcome := { timedOut with
  classification := .succeeded
  outputArtifactId := some "artifact" }

/-- The research succeeds and the draft is started. -/
def drafts : List (Database → ServiceTransaction) := [
  fun _ => .advanceRun 1 .markValidated .none 1,
  fun _ => .persistPlan chain 2 2 2,
  fun _ => .activate 3,
  fun _ => .reserveRead adapter { stepId := "step", inputPayload := "{}" } "first" 4,
  fun _ => .completeRead { actorId := "worker", correlationId := "request" } "first" "step" found 5,
  fun _ => .advanceStep "draft" 1 .markReady .none 6,
  fun _ => .reserveRead adapter { stepId := "draft", inputPayload := "{}" } "second" 7]

def drafted : Option Database := ServiceTransaction.run? (fun _ _ => true) drafts admitted

theorem dependency_order_drafted : ∃ db step, drafted = some db ∧ db.step? "draft" = some step ∧
    step.state = .executing ∧ DependenciesMet db step := by
  have running : drafted.any (fun db => (db.step? "draft").any fun step =>
      decide (step.state = .executing)) = true := by decide +kernel
  obtain ⟨db, ran, rows⟩ := (Option.any_eq_true _ _).mp running
  obtain ⟨step, present, executing⟩ := (Option.any_eq_true _ _).mp rows
  rw [decide_eq_true_eq] at executing
  have start : serviceMachine.ReachableWhere (fun _ _ => true = true) admitted :=
    .start admitted_received
  have reached := ServiceTransaction.run?_reachable start ran
  exact ⟨db, step, ran, present, executing,
    (dependency_order reached.reachable).1 "draft" step present (by simp [executing])⟩

end PlannedRead

end MarketingAgents
