import MarketingAgents.Services.PlanBinding

namespace MarketingAgents

open Library

/-- The rows of a run bind each other as the plan that was sealed for it says. -/
structure PlanBinding (db : Database) : Prop where
  unplanned : db.run.approvalRequired = none → (∀ stepId, db.step? stepId = none) ∧
    (∀ stepId, db.operations.get? stepId = none) ∧ (∀ actionId, db.action? actionId = none) ∧
    db.control = none ∧ db.authorizationHead = none
  controlled : db.run.approvalRequired ≠ none → db.control ≠ none
  readOnly : db.run.approvalRequired = some false → ∀ stepId step, db.step? stepId = some step →
    step.effect = .read
  approvable : db.run.approvalRequired = some true → db.currentMembers ≠ none
  sealed : ∀ stepId step, db.step? stepId = some step →
    db.control.map (·.policyHash) = some step.planHash
  dependencies : ∀ stepId step, db.step? stepId = some step → ∀ key ∈ step.dependencyKeys,
    ∃ otherId other, db.step? otherId = some other ∧ other.key = key
  operations : ∀ stepId operation, db.operations.get? stepId = some operation →
    ∃ step, db.step? stepId = some step ∧ step.callable ∧ operationBindsStep operation.policy step
  callable : ∀ stepId step, db.step? stepId = some step → step.callable →
    ∃ operation, db.operations.get? stepId = some operation
  actions : ∀ actionId stored, db.action? actionId = some stored →
    ∃ step, db.step? stored.action.contract.stepId = some step ∧ step.effect = .write ∧
      stored.action.contract.planHash = step.planHash
  ownStep : ∀ actionId stored otherId other, db.action? actionId = some stored →
    db.action? otherId = some other →
    stored.action.contract.stepId = other.action.contract.stepId → actionId = otherId
  writes : ∀ stepId step, db.step? stepId = some step → step.effect = .write →
    ∃ actionId stored, db.action? actionId = some stored ∧ stored.action.contract.stepId = stepId
  distinct : ∀ members, db.currentMembers = some members →
    (members.map (·.stepId)).Nodup ∧ (members.map (·.actionId)).Nodup
  covered : ∀ members, db.currentMembers = some members → ∀ actionId stored,
    db.action? actionId = some stored → ∃ member ∈ members, member.actionId = actionId

theorem RunStep.column_of_plan {φ : Type} (column : RunStep → φ)
    (planned : ∀ step : RunStep, column step.plan = column step) {before now : RunStep}
    (same : now.plan = before.plan) : column now = column before := by
  rw [← planned now, same, planned before]

section PlanColumns

variable {before now : RunStep} (same : now.plan = before.plan)

include same

theorem RunStep.effect_of_plan : now.effect = before.effect :=
  column_of_plan (·.effect) (fun _ => rfl) same

theorem RunStep.key_of_plan : now.key = before.key := column_of_plan (·.key) (fun _ => rfl) same

theorem RunStep.planHash_of_plan : now.planHash = before.planHash :=
  column_of_plan (·.planHash) (fun _ => rfl) same

theorem RunStep.dependencyKeys_of_plan : now.dependencyKeys = before.dependencyKeys :=
  column_of_plan (·.dependencyKeys) (fun _ => rfl) same

theorem RunStep.runtimePolicy_of_plan : now.runtimePolicy = before.runtimePolicy :=
  column_of_plan (·.runtimePolicy) (fun _ => rfl) same

theorem RunStep.callable_of_plan : now.callable = before.callable :=
  column_of_plan (·.callable) (fun _ => rfl) same

theorem operationBindsStep_of_plan (policy : OperationExecutionPolicy) :
    operationBindsStep policy now = operationBindsStep policy before :=
  RunStep.column_of_plan (operationBindsStep policy) (fun _ => rfl) same

end PlanColumns

namespace PlanBinding

variable {db after : Database}

private theorem absent {κ ρ φ : Type} [DecidableEq κ] {field : ρ → φ} {before later : Table κ ρ}
    (keeps : Table.Keeps field before later) (none_ : ∀ key, before.get? key = none) (key : κ) :
    later.get? key = none := by
  cases found : later.get? key with
  | none => rfl
  | some row =>
      obtain ⟨_, earlier, _⟩ := keeps.source found
      rw [none_ key] at earlier
      cases earlier

/-- Rows of the same plan bind each other in the same way. -/
theorem of_samePlan (binding : PlanBinding db) (same : SamePlan db after)
    (head : db.authorizationHead = none → after.authorizationHead = none) : PlanBinding after where
  unplanned := by
    intro undecided
    rw [same.approvalRequired] at undecided
    obtain ⟨steps, operations, actions, control, headless⟩ := binding.unplanned undecided
    have uncontrolled := same.control
    rw [control] at uncontrolled
    exact ⟨absent same.steps steps, absent same.operations operations, absent same.actions actions,
      by simpa using uncontrolled, head headless⟩
  controlled := by
    intro decided
    rw [same.approvalRequired] at decided
    have stored := binding.controlled decided
    intro missing
    have agree := same.control
    rw [missing] at agree
    exact stored (by simpa using agree.symm)
  readOnly := by
    intro direct stepId step found
    obtain ⟨before, earlier, plan⟩ := same.steps.source found
    rw [same.approvalRequired] at direct
    exact (RunStep.effect_of_plan plan).trans (binding.readOnly direct stepId before earlier)
  approvable := by
    intro required
    rw [same.members]
    exact binding.approvable (same.approvalRequired ▸ required)
  sealed := by
    intro stepId step found
    obtain ⟨before, earlier, plan⟩ := same.steps.source found
    rw [same.control, binding.sealed stepId before earlier]
    exact congrArg some (RunStep.planHash_of_plan plan).symm
  dependencies := by
    intro stepId step found key listed
    obtain ⟨before, earlier, plan⟩ := same.steps.source found
    rw [RunStep.dependencyKeys_of_plan plan] at listed
    obtain ⟨otherId, other, lookup, named⟩ := binding.dependencies stepId before earlier key listed
    obtain ⟨now, later, samePlan⟩ := same.steps.rows otherId other lookup
    exact ⟨otherId, now, later, (RunStep.key_of_plan samePlan).trans named⟩
  operations := by
    intro stepId operation found
    obtain ⟨before, earlier, policy⟩ := same.operations.source found
    obtain ⟨step, lookup, callable, binds⟩ := binding.operations stepId before earlier
    obtain ⟨now, later, plan⟩ := same.steps.rows stepId step lookup
    refine ⟨now, later, (RunStep.callable_of_plan plan).trans callable, ?_⟩
    rw [policy]
    exact (operationBindsStep_of_plan plan before.policy).trans binds
  callable := by
    intro stepId step found calls
    obtain ⟨before, earlier, plan⟩ := same.steps.source found
    obtain ⟨operation, lookup⟩ := binding.callable stepId before earlier
      ((RunStep.callable_of_plan plan).symm.trans calls)
    obtain ⟨now, later, _⟩ := same.operations.rows stepId operation lookup
    exact ⟨now, later⟩
  actions := by
    intro actionId stored found
    obtain ⟨before, earlier, contract⟩ := same.actions.source found
    obtain ⟨step, lookup, effect, planHash⟩ := binding.actions actionId before earlier
    obtain ⟨now, later, plan⟩ := same.steps.rows _ step lookup
    rw [contract]
    exact ⟨now, later, (RunStep.effect_of_plan plan).trans effect,
      planHash.trans (RunStep.planHash_of_plan plan).symm⟩
  ownStep := by
    intro actionId stored otherId other found lookup shared
    obtain ⟨before, earlier, contract⟩ := same.actions.source found
    obtain ⟨former, first, agree⟩ := same.actions.source lookup
    rw [contract, agree] at shared
    exact binding.ownStep actionId before otherId former earlier first shared
  writes := by
    intro stepId step found effect
    obtain ⟨before, earlier, plan⟩ := same.steps.source found
    obtain ⟨actionId, stored, lookup, binds⟩ := binding.writes stepId before earlier
      ((RunStep.effect_of_plan plan).symm.trans effect)
    obtain ⟨now, later, contract⟩ := same.actions.rows actionId stored lookup
    exact ⟨actionId, now, later, by rw [contract]; exact binds⟩
  distinct := by
    intro members current
    exact binding.distinct members (same.members ▸ current)
  covered := by
    intro members current actionId stored found
    obtain ⟨before, earlier, _⟩ := same.actions.source found
    exact binding.covered members (same.members ▸ current) actionId before earlier

end PlanBinding

namespace SealedPlan

variable {plan : SealedPlan} {stepId : String} {step : RunStep} {operation : Operation}

theorem step_fresh (planned : plan.steps.get? stepId = some step) :
    step.state = .pending ∧ step.version = 1 ∧ step.planHash = plan.planHash := by
  have fresh := plan.stepsFresh _ (Table.mem_entries_of_get? planned)
  simp only [RunStep.fresh, Bool.and_eq_true, decide_eq_true_eq] at fresh
  exact ⟨fresh.1.1.1, fresh.1.1.2, fresh.1.2⟩

theorem operation_fresh (planned : plan.operations.get? stepId = some operation) :
    operation.attempts = [] ∧ ∃ step, plan.steps.get? stepId = some step ∧ step.callable ∧
      operationBindsStep operation.policy step := by
  have bound := plan.operationsBound
  simp only [operationsBind, Bool.and_eq_true, List.all_eq_true, List.any_eq_true,
    decide_eq_true_eq] at bound
  obtain ⟨⟨_, step⟩, member, rfl, fresh⟩ := bound.1 _ (Table.mem_entries_of_get? planned)
  simp only [Operation.fresh, Bool.and_eq_true, decide_eq_true_eq] at fresh
  exact ⟨fresh.2, step, Table.get?_eq_some_iff.mpr member, fresh.1.1, fresh.1.2⟩

theorem callable_operation (planned : plan.steps.get? stepId = some step)
    (callable : step.callable) :
    ∃ operation, plan.operations.get? stepId = some operation := by
  have bound := plan.operationsBound
  simp only [operationsBind, Bool.and_eq_true, List.all_eq_true, List.any_eq_true,
    decide_eq_true_eq] at bound
  have covered := bound.2 _ (Table.mem_entries_of_get? planned)
  simp only [callable, Bool.not_true, Bool.false_or, List.any_eq_true, decide_eq_true_eq] at covered
  obtain ⟨⟨_, operation⟩, member, rfl⟩ := covered
  exact ⟨operation, Table.get?_eq_some_iff.mpr member⟩

theorem control_fresh : plan.control.policyHash = plan.planHash ∧ plan.control.version = 1 ∧
    plan.control.window = none ∧ plan.control.cancelRequest = none := by
  have fresh := plan.controlFresh
  simp only [RunExecutionControl.fresh, Bool.and_eq_true, decide_eq_true_eq] at fresh
  exact ⟨fresh.1.1.1.1.1, fresh.2, fresh.1.1.2, fresh.1.2⟩

end SealedPlan

namespace ApprovalEpoch

variable {epoch : ApprovalEpoch} {planHash actionId : String} {steps : Table String RunStep}
variable {stored : StoredAction}

/-- What a member of a proposed set says about its action and its step. -/
structure MemberProposed (epoch : ApprovalEpoch) (planHash : String) (steps : Table String RunStep)
    (member : AuthorizationSetMember) (stored : StoredAction) : Prop where
  unreleased : member.release = none
  action : epoch.actions.get? member.actionId = some stored
  proposed : epoch.actionProposed planHash stored member
  step : ∃ step, steps.get? member.stepId = some step ∧ step.effect = .write

theorem member_proposed (bound : epoch.membersBind planHash steps) {member : AuthorizationSetMember}
    (listed : member ∈ epoch.set.members) :
      ∃ stored, epoch.MemberProposed planHash steps member stored := by
  simp only [membersBind, Bool.and_eq_true, List.all_eq_true, List.any_eq_true,
    decide_eq_true_eq] at bound
  obtain ⟨⟨unreleased, action, actionListed, same, proposed⟩, step, stepListed,
    ⟨named, effect⟩, _⟩ :=
    bound.1.1.2 member listed
  exact ⟨action.2, unreleased, Table.get?_eq_some_iff.mpr (by rw [← same]; exact actionListed),
    proposed, step.2, Table.get?_eq_some_iff.mpr (by rw [← named]; exact stepListed), effect⟩

theorem action_member (bound : epoch.membersBind planHash steps)
    (found : epoch.actions.get? actionId = some stored) :
    ∃ member ∈ epoch.set.members, member.actionId = actionId ∧
      epoch.MemberProposed planHash steps member stored := by
  have covered := bound
  simp only [membersBind, Bool.and_eq_true, List.all_eq_true, List.any_eq_true,
    decide_eq_true_eq] at covered
  obtain ⟨member, listed, same⟩ := covered.1.2 _ (Table.mem_entries_of_get? found)
  obtain ⟨again, proposed⟩ := member_proposed bound listed
  obtain rfl : again = stored := Option.some.inj (by rw [← proposed.action, same]; exact found)
  exact ⟨member, listed, same, proposed⟩

theorem members_distinct (bound : epoch.membersBind planHash steps) :
    (epoch.set.members.map (·.stepId)).Nodup ∧ (epoch.set.members.map (·.actionId)).Nodup := by
  simp only [membersBind, Bool.and_eq_true, decide_eq_true_eq] at bound
  exact ⟨bound.1.1.1.1, bound.1.1.1.2⟩

theorem write_member (bound : epoch.membersBind planHash steps)
    (planned : steps.get? stepId = some step) (effect : step.effect = .write) :
    ∃ member ∈ epoch.set.members, member.stepId = stepId := by
  simp only [membersBind, Bool.and_eq_true, List.all_eq_true, Bool.or_eq_true, List.any_eq_true,
    decide_eq_true_eq] at bound
  rcases bound.2 _ (Table.mem_entries_of_get? planned) with read | covered
  · rw [effect] at read
    cases read
  · exact covered

theorem MemberProposed.row (proposed : epoch.MemberProposed planHash steps member stored) :
    stored.action.state = .awaitingApproval ∧ stored.attempts = [] ∧
      stored.action.contract.planHash = planHash ∧
        stored.action.contract.stepId = member.stepId := by
  have row := proposed.proposed
  simp only [actionProposed, Bool.and_eq_true, decide_eq_true_eq] at row
  exact ⟨row.1.1.1.1.1.1.1.1.1, row.1.1.1.1.1.1.1.2, row.1.1.1.1.1.2, row.1.2⟩

end ApprovalEpoch

namespace PlanPersisted

variable {db after : Database} {plan : SealedPlan}

theorem steps_keep (persisted : PlanPersisted db plan after) :
    Table.Keeps RunStep.plan plan.steps after.steps :=
  persisted.steps.related fun _ member => Table.get?_eq_some_iff.mpr (List.mem_filter.mp member).1

theorem source (persisted : PlanPersisted db plan after) (found : after.step? stepId = some step) :
    ∃ before, plan.steps.get? stepId = some before ∧ step.plan = before.plan :=
  persisted.steps_keep.source found

theorem action_epoch (persisted : PlanPersisted db plan after)
    (unplanned : ∀ actionId, db.action? actionId = none)
    (found : after.action? actionId = some stored) :
    ∃ epoch, plan.epoch = some epoch ∧ epoch.actions.get? actionId = some stored := by
  have approvals := persisted.approvals
  unfold SealedPlan.ApprovalsInstalled at approvals
  cases proposed : plan.epoch with
  | none =>
      simp only [proposed] at approvals
      rw [Database.action?, approvals.1] at found
      have absent := unplanned actionId
      rw [Database.action?, found] at absent
      cases absent
  | some epoch =>
      simp only [proposed] at approvals
      rw [Database.action?, approvals.1] at found
      exact ⟨epoch, rfl, found⟩

theorem epoch_current (persisted : PlanPersisted db plan after)
    (proposed : plan.epoch = some epoch) : after.actions = epoch.actions ∧
      after.currentAuthorizationSet = some (epoch.head, epoch.set) := by
  have approvals := persisted.approvals
  simp only [SealedPlan.ApprovalsInstalled, proposed] at approvals
  have opened := (plan.approvalBound epoch proposed).1
  simp only [ApprovalEpoch.setOpen, Bool.and_eq_true, decide_eq_true_eq] at opened
  obtain ⟨⟨⟨⟨⟨⟨setId, headPlan⟩, revision⟩, membership⟩, setPlan⟩, _⟩, _⟩ := opened
  refine ⟨approvals.1, ?_⟩
  simp only [Database.currentAuthorizationSet, bind, Option.bind_eq_some_iff, Option.guard_eq_some',
    exists_const, Option.pure_def, Option.some.injEq, Prod.mk.injEq]
  refine ⟨epoch.head, approvals.2.1, epoch.set, ?_, ⟨setPlan.trans headPlan.symm, revision.symm,
    membership.symm⟩, rfl, rfl⟩
  rw [approvals.2.2, Table.get?_put, if_pos setId]

theorem headless (persisted : PlanPersisted db plan after) (unplanned : db.authorizationHead = none)
    (direct : plan.epoch = none) : after.currentMembers = none := by
  have approvals := persisted.approvals
  simp only [SealedPlan.ApprovalsInstalled, direct] at approvals
  simp [Database.currentMembers, Database.currentAuthorizationSet, approvals.2.1, unplanned]

theorem members (persisted : PlanPersisted db plan after) (unplanned : db.authorizationHead = none)
    {members : List AuthorizationSetMember} (current : after.currentMembers = some members) :
    ∃ epoch, plan.epoch = some epoch ∧
      members = epoch.set.members.map fun member => { member with release := none } := by
  cases proposed : plan.epoch with
  | none =>
      rw [persisted.headless unplanned proposed] at current
      cases current
  | some epoch =>
      rw [Database.currentMembers, (persisted.epoch_current proposed).2] at current
      exact ⟨epoch, rfl, (Option.some.inj current).symm⟩

theorem binding (persisted : PlanPersisted db plan after) (before : PlanBinding db)
    (undecided : db.run.approvalRequired = none) : PlanBinding after := by
  obtain ⟨_, _, noActions, _, headless⟩ := before.unplanned undecided
  obtain ⟨sealed, _, _, _⟩ := plan.control_fresh
  exact {
    unplanned := by simp [persisted.approvalRequired]
    controlled := by simp [persisted.control]
    readOnly := by
      intro direct stepId step found
      obtain ⟨planned, lookup, same⟩ := persisted.source found
      rw [persisted.approvalRequired, Option.some.injEq] at direct
      exact (RunStep.effect_of_plan same).trans
        (plan.readOnly (by simpa [SealedPlan.containsWriteActions] using direct) _
          (Table.mem_entries_of_get? lookup))
    approvable := by
      intro required
      rw [persisted.approvalRequired, Option.some.injEq] at required
      obtain ⟨epoch, proposed⟩ := Option.isSome_iff_exists.mp required
      simp [Database.currentMembers, (persisted.epoch_current proposed).2]
    sealed := by
      intro stepId step found
      obtain ⟨planned, lookup, same⟩ := persisted.source found
      rw [persisted.control, Option.map_some, sealed, ← (plan.step_fresh lookup).2.2]
      exact congrArg some (RunStep.planHash_of_plan same).symm
    dependencies := by
      intro stepId step found key listed
      obtain ⟨planned, lookup, same⟩ := persisted.source found
      rw [RunStep.dependencyKeys_of_plan same] at listed
      obtain ⟨other, member, named⟩ :=
        plan.dependenciesPlanned _ (Table.mem_entries_of_get? lookup) key listed
      obtain ⟨now, later, samePlan⟩ := persisted.steps_keep.rows other.1 other.2
        (Table.get?_eq_some_iff.mpr member)
      exact ⟨other.1, now, later, (RunStep.key_of_plan samePlan).trans named⟩
    operations := by
      intro stepId operation found
      rw [persisted.operations] at found
      obtain ⟨_, step, lookup, callable, binds⟩ := plan.operation_fresh found
      obtain ⟨now, later, same⟩ := persisted.steps_keep.rows stepId step lookup
      exact ⟨now, later, (RunStep.callable_of_plan same).trans callable,
        (operationBindsStep_of_plan same _).trans binds⟩
    callable := by
      intro stepId step found calls
      obtain ⟨planned, lookup, same⟩ := persisted.source found
      rw [persisted.operations]
      exact plan.callable_operation lookup ((RunStep.callable_of_plan same).symm.trans calls)
    actions := by
      intro actionId stored found
      obtain ⟨epoch, proposed, lookup⟩ := persisted.action_epoch noActions found
      have bound := (plan.approvalBound epoch proposed).2.1
      obtain ⟨member, _, _, memberProposed⟩ := epoch.action_member bound lookup
      obtain ⟨step, planned, effect⟩ := memberProposed.step
      obtain ⟨_, _, planHash, stepId⟩ := memberProposed.row
      obtain ⟨now, later, same⟩ := persisted.steps_keep.rows member.stepId step planned
      rw [stepId]
      refine ⟨now, later, (RunStep.effect_of_plan same).trans effect, ?_⟩
      rw [planHash, ← (plan.step_fresh planned).2.2]
      exact (RunStep.planHash_of_plan same).symm
    ownStep := by
      intro actionId stored otherId other found lookup shared
      obtain ⟨epoch, proposed, first⟩ := persisted.action_epoch noActions found
      obtain ⟨again, same, second⟩ := persisted.action_epoch noActions lookup
      obtain rfl : epoch = again := Option.mem_unique proposed same
      have bound := (plan.approvalBound epoch proposed).2.1
      obtain ⟨left, leftListed, rfl, leftProposed⟩ := epoch.action_member bound first
      obtain ⟨right, rightListed, rfl, rightProposed⟩ := epoch.action_member bound second
      rw [leftProposed.row.2.2.2, rightProposed.row.2.2.2] at shared
      rw [List.inj_on_of_nodup_map (epoch.members_distinct bound).1 leftListed rightListed shared]
    writes := by
      intro stepId step found effect
      obtain ⟨planned, lookup, same⟩ := persisted.source found
      have writes : planned.effect = .write := (RunStep.effect_of_plan same).symm.trans effect
      cases proposed : plan.epoch with
      | none =>
          have reads := plan.readOnly proposed _ (Table.mem_entries_of_get? lookup)
          rw [writes] at reads
          cases reads
      | some epoch =>
          have bound := (plan.approvalBound epoch proposed).2.1
          obtain ⟨member, listed, rfl⟩ := epoch.write_member bound lookup writes
          obtain ⟨stored, memberProposed⟩ := epoch.member_proposed bound listed
          refine ⟨member.actionId, stored, ?_, memberProposed.row.2.2.2⟩
          rw [Database.action?, (persisted.epoch_current proposed).1]
          exact memberProposed.action
    distinct := by
      intro members current
      obtain ⟨epoch, proposed, rfl⟩ := persisted.members headless current
      have distinct := epoch.members_distinct (plan.approvalBound epoch proposed).2.1
      simpa [Function.comp_def] using distinct
    covered := by
      intro members current actionId stored found
      obtain ⟨epoch, proposed, rfl⟩ := persisted.members headless current
      obtain ⟨again, same, lookup⟩ := persisted.action_epoch noActions found
      obtain rfl : epoch = again := Option.mem_unique proposed same
      obtain ⟨member, listed, named, _⟩ :=
        epoch.action_member (plan.approvalBound epoch proposed).2.1 lookup
      exact ⟨_, List.mem_map_of_mem listed, named⟩ }

end PlanPersisted

end MarketingAgents
