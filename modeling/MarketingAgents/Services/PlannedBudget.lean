import Mathlib
import MarketingAgents.Domain.PlanningBudget
import MarketingAgents.Persistence.BudgetDenials
import MarketingAgents.Services.ExecutionAccounting
import MarketingAgents.Services.PlanSoundness

namespace MarketingAgents

open Library

/-! # Planned budgets at run time

The planner counts the calls that the steps of a plan demand; the control
counts the calls that were granted.  A plan that was accepted never runs out of
its own budget.
-/

/-- A sealed plan that passed the planning budget, with the control made from it. -/
structure BudgetedPlan extends SealedPlan where
  runtimePolicy : RunRuntimePolicy
  demands : List StepRuntimeDemand
  totals : RuntimePlanTotals
  demanded : demands.map (fun demand => (demand.connectorFamily, demand.policy)) =
    steps.rows.map fun step => (step.connectorFamily, step.runtimePolicy)
  accepted : validateRuntimePlanBudget runtimePolicy demands = .ok totals
  controlBinds : control.runTimeoutSeconds = runtimePolicy.runTimeoutSeconds ∧
    control.maxModelCalls = runtimePolicy.maxModelCalls ∧
    control.maxToolCalls = runtimePolicy.maxToolCalls

/-- A change elsewhere leaves the plan of the run alone. -/
def KeepsPlan (db : Database) : AccountingOperation → Prop
  | .elsewhere after => SamePlan db after ∧
      (db.authorizationHead = none → after.authorizationHead = none)
  | _ => True

/-- The operations of a control that was initialised from an accepted plan. -/
def plannedMachine : Machine Database AccountingOperation where
  initial db := ∃ base, ∃ plan : BudgetedPlan, ∃ expectedVersion occurredAt activatedAt,
    PlanBinding base ∧ base.run.approvalRequired = none ∧
    PlanPersistenceService.persist base plan.toSealedPlan expectedVersion occurredAt activatedAt =
      .ok db
  step db operation after := KeepsPlan db operation ∧ operation.Applies db after

def RunStep.demands (kind : AttemptKind) (step : RunStep) : Bool :=
  step.runtimePolicy.attemptKind = kind

namespace Database

variable (db : Database)

/-- How many steps of the plan are charged to one counter. -/
def plannedCalls (kind : AttemptKind) : Nat := db.steps.count fun _ step => step.demands kind

/-- The WRITE steps whose provider was called. -/
def deliveredSteps : List String :=
  (db.actions.entries.filter (·.2.called)).map (·.2.action.contract.stepId)

/-- The steps that were charged to one counter. -/
def chargedSteps (kind : AttemptKind) : List String :=
  db.operations.keysWhere (fun _ operation => operation.calledAs kind) ++
    if kind = .tool then db.deliveredSteps else []

end Database

namespace BudgetedPlan

variable (plan : BudgetedPlan)

theorem demandedCalls_eq (kind : AttemptKind) :
    demandedCalls kind plan.demands = plan.steps.count fun _ step => step.demands kind := by
  have policies : plan.demands.map (·.policy) = plan.steps.rows.map (·.runtimePolicy) := by
    have pairs := congrArg (List.map Prod.snd) plan.demanded
    simpa [List.map_map, Function.comp_def] using pairs
  have counted := congrArg (List.countP fun policy : StepRuntimePolicy =>
    decide (policy.attemptKind = kind)) policies
  simp only [List.countP_map, Table.rows] at counted
  exact counted

theorem demandedCalls_le {kind : AttemptKind} (calls : kind ≠ .noCall) :
    demandedCalls kind plan.demands ≤ plan.control.maxCalls kind := by
  obtain ⟨_, _, modelCalls, toolCalls⟩ := validateRuntimePlanBudget_ok plan.accepted
  cases kind with
  | model => exact Nat.le_trans modelCalls (Nat.le_of_eq plan.controlBinds.2.1.symm)
  | tool => exact Nat.le_trans toolCalls (Nat.le_of_eq plan.controlBinds.2.2.symm)
  | noCall => exact absurd rfl calls

end BudgetedPlan

/-- What is planned and what was charged, in every state of a run. -/
structure PlannedCalls (db : Database) (control : RunExecutionControl) : Prop where
  binding : PlanBinding db
  accounts : ExecutionAccounting db control
  within : ∀ kind, kind ≠ .noCall → db.plannedCalls kind ≤ control.maxCalls kind
  delivered : ∀ actionId stored, db.action? actionId = some stored → stored.called →
    ∃ step, db.step? stored.action.contract.stepId = some step ∧ step.demands .tool
  reasons : ∀ stepId operation, db.operations.get? stepId = some operation →
    ∀ attempt ∈ operation.attempts, ∀ code ∈ attempt.terminalReasonCode, code ∉ budgetDenials

/-- What one operation may change of it. -/
structure PlannedChange (db after : Database) : Prop where
  plan : SamePlan db after
  head : db.authorizationHead = none → after.authorizationHead = none
  budgets : ∀ control later, db.control = some control → after.control = some later →
    later.maxModelCalls = control.maxModelCalls ∧ later.maxToolCalls = control.maxToolCalls
  delivered : ∀ actionId stored now, db.action? actionId = some stored →
    after.action? actionId = some now → now.called → stored.called ∨
      ∃ step, db.step? stored.action.contract.stepId = some step ∧ step.demands .tool
  attempts : ∀ stepId operation now, db.operations.get? stepId = some operation →
    after.operations.get? stepId = some now → ∀ attempt ∈ now.attempts,
      attempt ∈ operation.attempts ∨
      ∀ code ∈ attempt.terminalReasonCode, code ∉ budgetDenials

namespace PlannedChange

variable {db after : Database}

theorem of_control {control later : RunExecutionControl} (stored : db.control = some control)
    (policyHash : later.policyHash = control.policyHash)
    (budgets : later.maxModelCalls = control.maxModelCalls ∧
      later.maxToolCalls = control.maxToolCalls) :
    PlannedChange db (db.storeControl later) where
  plan := { SamePlan.refl db with control := by simp [Database.storeControl, stored, policyHash] }
  head := id
  budgets := by
    intro before now found lookup
    obtain rfl := Option.mem_unique stored found
    obtain rfl : later = now := Option.some.inj lookup
    exact budgets
  delivered := by
    intro actionId action now found lookup called
    obtain rfl := Option.mem_unique found lookup
    exact .inl called
  attempts := by
    intro stepId operation now found lookup attempt member
    obtain rfl := Option.mem_unique found lookup
    exact .inl member

theorem refl {control : RunExecutionControl} (stored : db.control = some control) :
    PlannedChange db db := by
  have same : db.storeControl control = db := by rw [Database.storeControl, ← stored]
  have change := of_control stored rfl ⟨rfl, rfl⟩
  rwa [same] at change

end PlannedChange

namespace AccountingOperation

variable {db after : Database} {control : RunExecutionControl}

theorem reserve_planned {attempt : ExecutionAttempt} (stored : db.control = some control)
    (reserved : db.reserveAttempt command = .ok (attempt, after)) : PlannedChange db after := by
  rcases Database.reserveAttempt_effect reserved with ⟨_, rfl⟩ | ⟨_, reserved⟩
  · exact .refl stored
  obtain ⟨before, _, _, operation, charged, _, found, _, _, _, _, _, _, _,
    operationFound, reservation, charge, rfl⟩ := Database.reserveNewAttempt_effect reserved
  obtain ⟨present, _⟩ := Database.operation?_eq_some.mp operationFound
  obtain ⟨rfl, _⟩ := Database.chargeLogicalCall_effect charge
  exact {
    plan := {
      SamePlan.refl db with
      operations := .of_set present rfl
      control := by simp [found] }
    head := id
    budgets := by
      intro first later lookup now
      obtain rfl := Option.mem_unique found lookup
      obtain rfl := Option.some.inj now
      exact ⟨rfl, rfl⟩
    delivered := by
      intro actionId action now earlier lookup called
      obtain rfl := Option.mem_unique earlier lookup
      exact .inl called
    attempts := by
      intro stepId other now earlier lookup one member
      rw [Table.get?_set present] at lookup
      split at lookup
      · rename_i same
        subst same
        obtain rfl := Option.mem_unique present earlier
        obtain rfl := Option.some.inj lookup
        rcases List.mem_append.mp member with old | new
        · exact .inl old
        · rw [List.mem_singleton.mp new]
          exact .inr (by simp [ExecutionAttempt.terminalReasonCode, reservation.completion])
      · obtain rfl := Option.mem_unique earlier lookup
        exact .inl member }

theorem completionOf_reason {attemptNumber : Nat}
    (recorded : (db.completionOf command control window policy attemptNumber).terminalReasonCode =
      some code) :
    code ∉ budgetDenials := by
  simp only [Database.completionOf] at recorded
  cases outcome : db.effectiveOutcome control command.outcome with
  | succeeded => simp [outcome, Database.retryDisposition] at recorded
  | permanentFailure =>
      simp only [outcome, Database.retryDisposition, Option.some.injEq] at recorded
      subst recorded
      decide
  | cancelled =>
      simp only [outcome, Database.retryDisposition, Option.some.injEq] at recorded
      split at recorded <;> (subst recorded; decide)
  | transientFailure =>
      simp only [outcome, Database.retryDisposition] at recorded
      split at recorded
      · obtain rfl := Option.some.inj recorded
        decide
      · split at recorded
        · obtain rfl := Option.some.inj recorded
          decide
        · cases recorded

theorem complete_planned {completion : AttemptCompletion} (stored : db.control = some control)
    (completed : db.completeAttempt command = .ok (completion, after)) :
      PlannedChange db after := by
  obtain ⟨stepId, attempt, before, window, located, found, _, ⟨_, rfl⟩ | ⟨_, completed⟩⟩ :=
    Database.completeAttempt_effect completed
  · exact .refl stored
  obtain ⟨operation, operationFound, _, _, _, completionIs, rfl⟩ :=
    Database.completeOpenAttempt_effect completed
  obtain ⟨present, _⟩ := Database.operation?_eq_some.mp operationFound
  exact {
    plan := {
      SamePlan.refl db with
      operations := .of_set present rfl
      control := by simp [found] }
    head := id
    budgets := by
      intro first later lookup now
      obtain rfl := Option.mem_unique found lookup
      obtain rfl := Option.some.inj now
      exact ⟨rfl, rfl⟩
    delivered := by
      intro actionId action now earlier lookup called
      obtain rfl := Option.mem_unique earlier lookup
      exact .inl called
    attempts := by
      intro other again now earlier lookup one member
      rw [Table.get?_set present] at lookup
      split at lookup
      · rename_i same
        subst same
        obtain rfl := Option.mem_unique present earlier
        obtain rfl := Option.some.inj lookup
        obtain ⟨source, listed, rfl⟩ := List.mem_map.mp member
        split
        · right
          intro code recorded
          rw [completionIs] at recorded
          exact completionOf_reason recorded
        · exact .inl listed
      · obtain rfl := Option.mem_unique earlier lookup
        exact .inl member }

theorem deliver_planned {claimedAt : Time}
    {start : DispatchCallStart} (stored : db.control = some control)
    (dispatched : ExternalActionDispatcher.claimAndMarkCallStarted dispatcher db actionId leaseOwner
      claimedAt = .ok (start, after)) : PlannedChange db after := by
  rcases ExternalActionDispatcher.claimAndMarkCallStarted_effect dispatched with
    rfl | ⟨action, authority, found, _, started⟩
  · exact .refl stored
  obtain ⟨step, stepFound, demands⟩ := ExternalActionDispatcher.startAdmitted_tool found started
  obtain ⟨before, window, charged, updated, steps, stepTransitions, rateWindows, audits,
    controlFound, _, _, _,
    call, callStep, charge, rfl⟩ := ExternalActionDispatcher.startAdmitted_effect found started
  obtain ⟨rfl, _⟩ := Database.chargeLogicalCall_effect charge
  exact {
    plan := {
      SamePlan.refl db with
      steps := callStep.keeps
      actions := .of_set found call.contract
      control := by simp [controlFound] }
    head := id
    budgets := by
      intro first later lookup now
      obtain rfl := Option.mem_unique controlFound lookup
      obtain rfl := Option.some.inj now
      exact ⟨rfl, rfl⟩
    delivered := by
      intro other earlierAction now earlier lookup called
      have changed : (db.actions.set actionId updated).get? other = some now := lookup
      rw [Table.get?_set found] at changed
      split at changed
      · rename_i same
        subst same
        obtain rfl := Option.mem_unique found earlier
        exact .inr ⟨step, stepFound, by simpa [RunStep.demands] using demands⟩
      · obtain rfl := Option.mem_unique earlier changed
        exact .inl called
    attempts := by
      intro stepId operation now earlier lookup attempt member
      obtain rfl := Option.mem_unique earlier lookup
      exact .inl member }

/-- Every operation keeps the plan and its budgets, and calls only what the plan demands. -/
theorem planned (stored : db.control = some control)
    (keeps : KeepsPlan db operation) (applied : operation.Applies db after) :
      PlannedChange db after := by
  cases operation with
  | startExecution =>
      obtain ⟨before, found, ⟨_, _, _, rfl⟩ | ⟨_, _, _, _, _, rfl⟩⟩ :=
        Database.startExecution_effect applied
      · exact .refl stored
      · exact .of_control found rfl ⟨rfl, rfl⟩
  | reserveAttempt =>
      obtain ⟨_, reserved⟩ := applied
      exact reserve_planned stored reserved
  | completeAttempt =>
      obtain ⟨_, completed⟩ := applied
      exact complete_planned stored completed
  | recoverExpiredAttempt =>
      obtain ⟨_, recovered⟩ := applied
      obtain ⟨_, _, _, _, _, _, _, _, ⟨_, rfl⟩ | ⟨_, _, completed⟩⟩ :=
        Database.recoverExpiredAttempt_effect recovered
      · exact .refl stored
      · exact complete_planned stored completed
  | reserveDeliveryCall =>
      obtain ⟨_, dispatched⟩ := applied
      exact deliver_planned stored dispatched
  | requestCancel =>
      obtain ⟨before, found, ⟨_, _, _, rfl⟩ | ⟨_, _, _, rfl⟩⟩ :=
        Database.requestCancel_effect applied
      · exact .refl stored
      · exact .of_control found rfl ⟨rfl, rfl⟩
  | elsewhere =>
      obtain ⟨accounts, rfl⟩ := applied
      exact {
        plan := keeps.1
        head := keeps.2
        budgets := by
          intro first later lookup now
          rw [accounts.control, lookup] at now
          obtain rfl := Option.some.inj now
          exact ⟨rfl, rfl⟩
        delivered := by
          intro actionId before now earlier lookup called
          rw [accounts.called actionId before now earlier lookup] at called
          exact .inl called
        attempts := by
          intro stepId before now earlier lookup attempt member
          rw [accounts.operations, earlier] at lookup
          obtain rfl := Option.some.inj lookup
          exact .inl member }

end AccountingOperation

namespace PlannedCalls

variable {db after : Database} {control : RunExecutionControl}

theorem plannedCalls_eq (same : SamePlan db after) (kind : AttemptKind) :
    after.plannedCalls kind = db.plannedCalls kind := by
  refine Table.count_congr same.steps.keys fun stepId now before lookup earlier => ?_
  obtain ⟨again, found, plan⟩ := same.steps.source lookup
  obtain rfl := Option.mem_unique earlier found
  simp only [RunStep.demands, RunStep.runtimePolicy_of_plan plan]

/-- A persisted plan has charged nothing yet. -/
theorem initial (started : plannedMachine.initial db) :
    ∃ control, db.control = some control ∧ PlannedCalls db control := by
  obtain ⟨base, plan, _, _, _, binding, undecided, persisted⟩ := started
  have persisted := PlanPersistenceService.persist_effect persisted
  obtain ⟨_, _, noActions, _, _⟩ := binding.unplanned undecided
  have unattempted : ∀ stepId operation, db.operations.get? stepId = some operation →
      operation.attempts = [] := by
    intro stepId operation found
    rw [persisted.operations] at found
    exact (plan.operation_fresh found).1
  have uncalled : ∀ actionId stored, db.action? actionId = some stored → stored.attempts = [] := by
    intro actionId stored found
    obtain ⟨epoch, proposed, lookup⟩ := persisted.action_epoch noActions found
    obtain ⟨_, _, _, memberProposed⟩ :=
      epoch.action_member (plan.approvalBound epoch proposed).2.1 lookup
    exact memberProposed.row.2.1
  have fresh := plan.controlFresh
  simp only [RunExecutionControl.fresh, Bool.and_eq_true, decide_eq_true_eq] at fresh
  have counting : accountingMachine.Reachable db := .start
    ⟨⟨plan.control, persisted.control, fresh.1.1.1.1.2, fresh.1.1.1.2, by rw [fresh.2]; decide⟩,
      unattempted, uncalled⟩
  obtain ⟨control, stored, accounts⟩ := ExecutionAccounting.reachable counting
  obtain rfl : plan.control = control := Option.mem_unique persisted.control stored
  refine ⟨plan.control, stored, persisted.binding binding undecided, accounts, ?_, ?_, ?_⟩
  · intro kind calls
    refine Nat.le_trans (Nat.le_of_eq ?_) (plan.demandedCalls_le calls)
    rw [plan.demandedCalls_eq]
    refine Table.count_congr persisted.steps_keep.keys fun stepId now before lookup earlier => ?_
    obtain ⟨again, found, same⟩ := persisted.steps_keep.source lookup
    obtain rfl := Option.mem_unique earlier found
    simp only [RunStep.demands, RunStep.runtimePolicy_of_plan same]
  · intro actionId action found called
    simp [StoredAction.called, uncalled actionId action found] at called
  · intro stepId operation found attempt member
    simp [unattempted stepId operation found] at member

theorem step (planned : PlannedCalls db control)
    (stored : db.control = some control) (stepped : plannedMachine.step db operation after) :
    ∃ later, after.control = some later ∧ PlannedCalls after later := by
  obtain ⟨keeps, applied⟩ := stepped
  have change := AccountingOperation.planned stored keeps applied
  obtain ⟨later, found, accounts, _⟩ := planned.accounts.step stored applied
  refine ⟨later, found, planned.binding.of_samePlan change.plan change.head, accounts, ?_, ?_, ?_⟩
  · intro kind calls
    obtain ⟨modelBudget, toolBudget⟩ := change.budgets control later stored found
    have within := planned.within kind calls
    rw [plannedCalls_eq change.plan]
    cases kind with
    | model => exact Nat.le_trans within (Nat.le_of_eq modelBudget.symm)
    | tool => exact Nat.le_trans within (Nat.le_of_eq toolBudget.symm)
    | noCall => exact absurd rfl calls
  · intro actionId now lookup called
    obtain ⟨before, earlier, contract⟩ := change.plan.actions.source lookup
    have demanded : ∃ step, db.step? before.action.contract.stepId = some step ∧
        step.demands .tool := by
      rcases change.delivered actionId before now earlier lookup called with already | charged
      · exact planned.delivered actionId before earlier already
      · exact charged
    obtain ⟨step, stepFound, demands⟩ := demanded
    obtain ⟨moved, present, same⟩ := change.plan.steps.rows _ step stepFound
    rw [contract]
    refine ⟨moved, present, ?_⟩
    rw [RunStep.demands, RunStep.runtimePolicy_of_plan same]
    exact demands
  · intro stepId now lookup attempt member code recorded
    obtain ⟨before, earlier, _⟩ := change.plan.operations.source lookup
    rcases change.attempts stepId before now earlier lookup attempt member with old | safe
    · exact planned.reasons stepId before earlier attempt old code recorded
    · exact safe code recorded

theorem reachable (reached : plannedMachine.Reachable db) :
    ∃ control, db.control = some control ∧ PlannedCalls db control := by
  refine reached.invariant (fun db => ∃ control, db.control = some control ∧
    PlannedCalls db control) initial ?_
  rintro db operation after ⟨control, stored, planned⟩ stepped
  exact planned.step stored stepped

theorem mem_deliveredSteps {stepId : String} : stepId ∈ db.deliveredSteps ↔ ∃ actionId stored,
    db.action? actionId = some stored ∧ stored.called ∧ stored.action.contract.stepId = stepId := by
  simp only [Database.deliveredSteps, List.mem_map, List.mem_filter, Database.action?,
    Table.get?_eq_some_iff]
  constructor
  · rintro ⟨⟨actionId, stored⟩, ⟨member, called⟩, rfl⟩
    exact ⟨actionId, stored, member, called, rfl⟩
  · rintro ⟨actionId, stored, member, called, rfl⟩
    exact ⟨(actionId, stored), ⟨member, called⟩, rfl⟩

theorem nodup_deliveredSteps (binding : PlanBinding db) : db.deliveredSteps.Nodup := by
  have distinct : (db.actions.entries.filter (·.2.called)).Pairwise fun left right =>
    left.1 ≠ right.1 :=
    (List.pairwise_map.mp db.actions.nodup).sublist List.filter_sublist
  rw [Database.deliveredSteps, List.nodup_iff_pairwise_ne, List.pairwise_map]
  refine distinct.imp_of_mem fun {left right} leftListed rightListed differs same => differs ?_
  exact binding.ownStep left.1 left.2 right.1 right.2
    (Table.get?_eq_some_iff.mpr (List.mem_filter.mp leftListed).1)
    (Table.get?_eq_some_iff.mpr (List.mem_filter.mp rightListed).1) same

theorem length_chargedSteps (planned : PlannedCalls db control) {kind : AttemptKind}
    (calls : kind ≠ .noCall) : (db.chargedSteps kind).length = control.calls kind := by
  have delivered : db.deliveredSteps.length = db.actions.count fun _ stored => stored.called := by
    simp [Database.deliveredSteps, Table.count, List.countP_eq_length_filter]
  cases kind with
  | model =>
      rw [RunExecutionControl.calls, planned.accounts.modelCalls]
      simp [Database.chargedSteps, Table.length_keysWhere]
  | tool =>
      rw [RunExecutionControl.calls, planned.accounts.toolCalls, ← delivered]
      simp [Database.chargedSteps, Table.length_keysWhere]
  | noCall => exact absurd rfl calls

/-- Every charge belongs to a step of its own that demands it. -/
theorem chargedSteps_planned (planned : PlannedCalls db control) (kind : AttemptKind) :
    (db.chargedSteps kind).Nodup ∧
      ∀ stepId ∈ db.chargedSteps kind, ∃ step, db.step? stepId = some step ∧ step.demands kind := by
  have attempted : ∀ stepId ∈ db.operations.keysWhere fun _ operation => operation.calledAs kind,
      ∃ step, db.step? stepId = some step ∧ step.demands kind ∧ step.effect = .read := by
    intro stepId listed
    obtain ⟨operation, found, called⟩ := Table.mem_keysWhere.mp listed
    obtain ⟨step, stepFound, callable, binds⟩ := planned.binding.operations stepId operation found
    simp only [Operation.calledAs, RunStep.callable, operationBindsStep, Bool.and_eq_true,
      decide_eq_true_eq] at called callable binds
    exact ⟨step, stepFound, by simp [RunStep.demands, ← binds.1.1.1.1.1.1.1.2, called.1],
      callable.1⟩
  by_cases tool : kind = .tool
  · subst tool
    simp only [Database.chargedSteps, if_true]
    refine ⟨List.nodup_append.mpr ⟨Table.nodup_keysWhere, nodup_deliveredSteps planned.binding, ?_⟩,
      ?_⟩
    · rintro stepId listed _ delivered rfl
      obtain ⟨step, found, _, read⟩ := attempted stepId listed
      obtain ⟨actionId, stored, lookup, _, same⟩ := mem_deliveredSteps.mp delivered
      obtain ⟨again, present, write, _⟩ := planned.binding.actions actionId stored lookup
      rw [same, found] at present
      obtain rfl := Option.some.inj present
      rw [read] at write
      cases write
    · intro stepId listed
      rcases List.mem_append.mp listed with called | delivered
      · obtain ⟨step, found, demands, _⟩ := attempted stepId called
        exact ⟨step, found, demands⟩
      · obtain ⟨actionId, stored, lookup, called, rfl⟩ := mem_deliveredSteps.mp delivered
        exact planned.delivered actionId stored lookup called
  · simp only [Database.chargedSteps, if_neg tool, List.append_nil]
    refine ⟨Table.nodup_keysWhere, fun stepId listed => ?_⟩
    obtain ⟨step, found, demands, _⟩ := attempted stepId listed
    exact ⟨step, found, demands⟩

theorem budget_left (planned : PlannedCalls db control) {kind : AttemptKind}
    (calls : kind ≠ .noCall)
    {step : RunStep} (found : db.step? stepId = some step) (demands : step.demands kind)
    (uncharged : stepId ∉ db.chargedSteps kind) : control.calls kind < control.maxCalls kind := by
  obtain ⟨distinct, charged⟩ := planned.chargedSteps_planned kind
  have subset : (stepId :: db.chargedSteps kind) ⊆
      db.steps.keysWhere fun _ step => step.demands kind := by
    intro other listed
    rcases List.mem_cons.mp listed with rfl | earlier
    · exact Table.mem_keysWhere.mpr ⟨step, found, demands⟩
    · obtain ⟨row, present, demanded⟩ := charged other earlier
      exact Table.mem_keysWhere.mpr ⟨row, present, demanded⟩
  have length :=
    (List.subperm_of_subset (List.nodup_cons.mpr ⟨uncharged, distinct⟩) subset).length_le
  rw [List.length_cons, planned.length_chargedSteps calls, Table.length_keysWhere] at length
  exact Nat.lt_of_lt_of_le (Nat.lt_of_succ_le length) (planned.within kind calls)

end PlannedCalls

namespace PlannedCalls

variable {db claimed : Database} {control : RunExecutionControl} {rejection : Rejection}

theorem attempt_funded (planned : PlannedCalls db control)
    (stored : db.control = some control) (denied : db.reserveAttempt command = .error rejection) :
    rejection.code ∉ budgetDenials := by
  intro exhausted
  obtain ⟨same, operation, found, present, unattempted, calls, full⟩ :=
    Database.reserveAttempt_denied denied exhausted planned.reasons
  obtain rfl : control = same := Option.mem_unique stored found
  obtain ⟨step, stepFound, _, binds⟩ := planned.binding.operations _ operation present
  simp only [operationBindsStep, Bool.and_eq_true, decide_eq_true_eq] at binds
  have demands : step.demands operation.policy.kind := by
    simp [RunStep.demands, ← binds.1.1.1.1.1.1.1.2]
  refine Nat.not_lt_of_le full (planned.budget_left calls stepFound demands ?_)
  intro charged
  rcases List.mem_append.mp charged with attempted | delivered
  · obtain ⟨again, lookup, called⟩ := Table.mem_keysWhere.mp attempted
    obtain rfl := Option.mem_unique present lookup
    simp [Operation.calledAs, unattempted] at called
  · split at delivered
    · obtain ⟨actionId, action, lookup, _, same⟩ := mem_deliveredSteps.mp delivered
      obtain ⟨write, writeFound, effect, _⟩ := planned.binding.actions actionId action lookup
      rw [same, stepFound] at writeFound
      obtain rfl := Option.some.inj writeFound
      obtain ⟨read, readFound, callable, _⟩ := planned.binding.operations _ operation present
      obtain rfl := Option.mem_unique stepFound readFound
      simp [RunStep.callable, effect] at callable
    · simp at delivered

/-- A claimed delivery of the plan finds the tool counter with room for its first call. -/
theorem delivery_funded {expectedVersion : Nat} {claimedAt leaseExpiresAt : Time}
    {command : DeliveryCallReservationCommand} (planned : PlannedCalls db control)
    (stored : db.control = some control)
    (claim : db.claimReserved (db.action? actionId) actionId expectedVersion authority
      leaseOwner claimedAt leaseExpiresAt = some claimed) (named : command.actionId = actionId)
    (denied : claimed.reserveDeliveryCall command = .error rejection) :
    rejection.code ∉ budgetDenials := by
  intro exhausted
  obtain ⟨same, step, held, found, stepFound, deliverable, heldFound, fits, first, full⟩ :=
    Database.reserveDeliveryCall_denied denied exhausted
  obtain ⟨current, action, claimedAction, read, present, _, _, _, _, fence, _, row, rfl⟩ :=
    Database.claimReserved_effect claim
  obtain rfl : action = current := Option.mem_unique present read
  obtain rfl : control = same := Option.mem_unique stored found
  rw [named, Database.storeAction_action?_self present, Option.some.injEq] at heldFound
  subst heldFound
  simp only [Database.deliverableAction, Bool.and_eq_true, decide_eq_true_eq] at fits
  simp only [Database.deliverableStep, Bool.and_eq_true, decide_eq_true_eq] at deliverable
  have stepId : action.action.contract.stepId = command.stepId := by
    rw [← fits.1.1.1.1.1.1.2, row]
  have number : action.action.deliveryAttemptCount + 1 = command.deliveryAttemptNumber := by
    rw [← fits.1.1.2, row]
  have history := fence
  simp only [Database.releaseFence, Bool.and_eq_true] at history
  rw [← number, ExternalActionDispatcher.uncalled_iff_unconsumed rfl rfl history.1.2,
    Bool.not_eq_true'] at first
  refine Nat.not_lt_of_le full (planned.budget_left (by simp) stepFound
    (by simpa [RunStep.demands] using deliverable.1.1.2) ?_)
  intro charged
  rcases List.mem_append.mp charged with attempted | delivered
  · obtain ⟨operation, lookup, _⟩ := Table.mem_keysWhere.mp attempted
    obtain ⟨read, readFound, callable, _⟩ := planned.binding.operations _ operation lookup
    have same : db.step? command.stepId = some step := stepFound
    obtain rfl := Option.mem_unique same readFound
    simp [RunStep.callable, deliverable.1.1.1.1.1.2] at callable
  · rw [if_pos rfl] at delivered
    obtain ⟨otherId, other, lookup, called, shared⟩ := mem_deliveredSteps.mp delivered
    obtain rfl := planned.binding.ownStep _ _ _ _ present lookup (stepId.trans shared.symm)
    obtain rfl := Option.mem_unique present lookup
    rw [first] at called
    cases called

end PlannedCalls

/-- In no run of an accepted plan is an attempt or a claimed delivery denied
because the budget of its counter is exhausted. -/
theorem planned_budget_suffices {db : Database} (reached : plannedMachine.Reachable db) :
    (∀ command rejection, db.reserveAttempt command = .error rejection →
      rejection.code ∉ budgetDenials) ∧
    ∀ actionId expectedVersion authority leaseOwner claimedAt leaseExpiresAt claimed,
      db.claimReserved (db.action? actionId) actionId expectedVersion authority leaseOwner claimedAt
        leaseExpiresAt = some claimed →
      ∀ command rejection, command.actionId = actionId →
        claimed.reserveDeliveryCall command = .error rejection →
          rejection.code ∉ budgetDenials := by
  obtain ⟨control, stored, planned⟩ := PlannedCalls.reachable reached
  refine ⟨fun command rejection denied => planned.attempt_funded stored denied, ?_⟩
  intro actionId expectedVersion authority leaseOwner claimedAt leaseExpiresAt claimed claim command
    rejection named denied
  exact planned.delivery_funded stored claim named denied

namespace PlannedRead

def policy : StepRuntimePolicy where
  operationKey := "research"
  attemptKind := .tool
  maxAttempts := 3
  backoff := .boundedExponential
  stepSeconds := 30
  rateLimit := { key := "template", maxCalls := 10, windowSeconds := 60 }

def step : RunStep where
  key := "research"
  effect := .read
  connectorFamily := "search"
  dependencyKeys := []
  planHash := "plan"
  requestSchemaId := some "request"
  dataClassification := "internal"
  timeoutSeconds := none
  runtimePolicy := policy
  state := .pending
  updatedAt := 1
  version := 1
  terminalReasonCode := none

theorem tool_callable : AttemptKind.tool ≠ .noCall := by decide

def operation : Operation where
  policy := {
    operationKey := "research"
    kind := .tool
    policyHash := "plan"
    requestSchemaId := some "request"
    dataClassification := "internal"
    maxAttempts := 3
    retryBackoff := .boundedExponential
    stepTimeoutSeconds := 30
    rateLimit := policy.rateLimit
    callable := tool_callable }
  attempts := []

def control : RunExecutionControl where
  policyHash := "plan"
  runTimeoutSeconds := 300
  maxModelCalls := 0
  maxToolCalls := 1
  modelCalls := 0
  toolCalls := 0
  window := none
  cancelRequest := none
  createdAt := 1
  updatedAt := 1
  version := 1

def plan : BudgetedPlan where
  planHash := "plan"
  steps := ⟨[("step", step)], by decide⟩
  operations := ⟨[("step", operation)], by decide⟩
  control := control
  epoch := none
  nonempty := by simp
  stepsFresh := by decide
  keysDistinct := by decide
  dependenciesPlanned := by decide
  operationsBound := by decide
  controlFresh := by decide
  readOnly := by decide
  approvalBound := by simp
  runtimePolicy :=
    { maxSteps := 1, maxModelCalls := 0, maxToolCalls := 1, runTimeoutSeconds := 300 }
  demands := [{
    templateId := "researcher"
    connectorFamily := "search"
    policy
    runSeconds := 300
    budget := {
      maxSteps := 1
      maxModelCalls := 0
      maxToolCalls := 1
      maxInputBytes := 65536
      maxInputFieldBytes := 16384
      maxOutputBytes := 262144
      maxModelOutputTokens := 4096 }
    templateNamed := by decide
    familyNamed := by decide
    classified := by decide }]
  totals := { stepCount := 1, modelCalls := 0, toolCalls := 1 }
  demanded := by decide
  accepted := by decide
  controlBinds := by decide

/-- The validated run before its plan is persisted. -/
def received : Database where
  runId := "run"
  workMode := .mockExecution
  run := {
    state := .validated
    version := 2
    createdAt := 0
    updatedAt := 1
    approvalRequired := none
    terminalReasonCode := none }
  runTransitions := []
  steps := .empty
  stepTransitions := []
  operations := .empty
  control := none
  actions := .empty
  receipts := .empty
  authorizationHead := none
  authorizationSets := .empty
  approvalRequests := .empty
  approvalUses := .empty
  rateWindows := .empty
  audits := []

theorem received_binding : PlanBinding received where
  unplanned := fun _ => ⟨fun _ => rfl, fun _ => rfl, fun _ => rfl, rfl, rfl⟩
  controlled := fun decided => absurd rfl decided
  readOnly := fun direct => by cases direct
  approvable := fun required => by cases required
  sealed := fun _ _ found => by cases found
  dependencies := fun _ _ found => by cases found
  operations := fun _ _ found => by cases found
  callable := fun _ _ found => by cases found
  actions := fun _ _ found => by cases found
  ownStep := fun _ _ _ _ found => by cases found
  writes := fun _ _ found => by cases found
  distinct := fun _ current => by cases current
  covered := fun _ current => by cases current

def planned : Option Database :=
  (PlanPersistenceService.persist received plan.toSealedPlan 2 2 2).toOption

theorem planned_budget_suffices_once : ∃ db, planned = some db ∧ db.plannedCalls .tool = 1 ∧
    ∀ command rejection, db.reserveAttempt command = .error rejection →
      rejection.code ∉ budgetDenials := by
  have counted : planned.map (fun db => db.plannedCalls .tool) = some 1 := by decide
  simp only [Option.map_eq_some_iff] at counted
  obtain ⟨db, persisted, once⟩ := counted
  have reached : plannedMachine.Reachable db := by
    refine .start ⟨received, plan, 2, 2, 2, received_binding, rfl, ?_⟩
    unfold planned at persisted
    cases outcome : PlanPersistenceService.persist received plan.toSealedPlan 2 2 2 with
    | error reason => simp [outcome, Except.toOption] at persisted
    | ok after =>
        rw [outcome] at persisted
        rw [Option.some.inj persisted]
  exact ⟨db, persisted, once, (planned_budget_suffices reached).1⟩

end PlannedRead

end MarketingAgents
