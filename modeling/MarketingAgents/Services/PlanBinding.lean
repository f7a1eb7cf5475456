import MarketingAgents.Services.Commits

namespace MarketingAgents

open Library

/-! # What the rows of a run say about each other

A plan binds its steps, operations, actions and approval members to each
other when it is persisted.  No later commit changes what they are bound by.
-/

/-- The planned part of a step, which no transition changes. -/
def RunStep.plan (step : RunStep) : RunStep :=
  { step with
    state := .pending
    updatedAt := 0
    version := 0
    terminalReasonCode := none }

theorem RunStep.Advanced.plan {before after : RunStep}
    (advanced : before.Advanced command after) : after.plan = before.plan := by
  obtain ⟨_, _, _, row⟩ := advanced.row
  rw [row]
  rfl

theorem Run.Advanced.approvalRequired {before after : Run}
    (advanced : before.Advanced command after) (ordinary : command ≠ .recordPlan) :
    after.approvalRequired = before.approvalRequired := by
  have moved := advanced.moved
  cases command with
  | recordPlan => exact absurd rfl ordinary
  | receive => cases moved
  | fail | cancel => exact moved.2
  | activatePlan => exact moved.2.1
  | _ => exact moved.2.2

/-- The members of the current set without what their release recorded. -/
def Database.currentMembers (db : Database) : Option (List AuthorizationSetMember) :=
  db.currentAuthorizationSet.map fun current => current.2.members.map fun member =>
    { member with release := none }

/-- Two states of a run whose rows belong to the same plan. -/
structure SamePlan (db after : Database) : Prop where
  steps : Table.Keeps RunStep.plan db.steps after.steps
  operations : Table.Keeps Operation.policy db.operations after.operations
  actions : Table.Keeps (·.action.contract) db.actions after.actions
  control : after.control.map (·.policyHash) = db.control.map (·.policyHash)
  approvalRequired : after.run.approvalRequired = db.run.approvalRequired
  members : after.currentMembers = db.currentMembers

section Related

variable {before after : Table String RunStep} {actions later : Table String StoredAction}
variable {stepId : String}

theorem StepsAdvanced.related (advanced : StepsAdvanced command selected before after)
    (current : ∀ entry ∈ selected, before.get? entry.1 = some entry.2) :
    Table.Keeps RunStep.plan before after := by
  refine ⟨⟨advanced.keys, fun stepId step found => ?_⟩⟩
  by_cases listed : stepId ∈ selected.map Prod.fst
  · obtain ⟨entry, member, rfl⟩ := List.mem_map.mp listed
    obtain ⟨moved, lookup, change⟩ := advanced.moved entry member
    obtain rfl := Option.some.inj (found.symm.trans (current entry member))
    exact ⟨moved, lookup, change.plan⟩
  · exact ⟨step, (advanced.others stepId listed).trans found, rfl⟩

theorem ActionsReconsidered.related (changed : ActionsReconsidered actions later) :
    Table.Keeps (·.action.contract) actions later := by
  refine ⟨⟨changed.keys, fun actionId stored found => ?_⟩⟩
  rcases changed.rows actionId with same | ⟨again, updated, lookup, now, reconsidered⟩
  · exact ⟨stored, same.trans found, rfl⟩
  · obtain rfl := Option.mem_unique found lookup
    exact ⟨updated, now, reconsidered.contract⟩

theorem StoredAction.Released.contract {stored updated : StoredAction}
    (released : stored.Released updated) :
    updated.action.contract = stored.action.contract := by
  obtain ⟨_, _, row⟩ := released.row
  rw [row]

theorem StoredAction.CancelledPreCall.contract {stored updated : StoredAction}
    (cancelled : stored.CancelledPreCall updated) :
    updated.action.contract = stored.action.contract := by
  obtain ⟨_, _, row⟩ := cancelled.row
  rw [row]
  rfl

theorem StoredAction.Concluded.contract {stored updated : StoredAction}
    (concluded : stored.Concluded outcome updated) :
    updated.action.contract = stored.action.contract := by
  obtain ⟨_, _, _, row⟩ := concluded.row
  rw [row]
  rfl

theorem ExternalActionDispatcher.ActionReleased.contract
    (released : ExternalActionDispatcher.ActionReleased db actionId stored updated) :
    updated.action.contract = stored.action.contract := by
  obtain ⟨_, row⟩ := released.row
  rw [row]
  rfl

theorem CallStarted.contract (started : CallStarted db actionId authority stored updated) :
    updated.action.contract = stored.action.contract := by
  obtain ⟨_, _, _, _, row, _⟩ := started.action
  rw [row]

theorem CallStep.keeps (moved : CallStep stepId before after) :
    Table.Keeps RunStep.plan before after := by
  cases moved with
  | first found advanced => exact .of_set found advanced.plan
  | retry => exact .refl _

theorem ActionsCancelled.related (cancelled : ActionsCancelled selected actions later)
    (current : ∀ entry ∈ selected, actions.get? entry.1 = some entry.2) :
    Table.Keeps (·.action.contract) actions later := by
  refine ⟨⟨cancelled.keys, fun actionId stored found => ?_⟩⟩
  by_cases listed : actionId ∈ selected.map Prod.fst
  · obtain ⟨entry, member, rfl⟩ := List.mem_map.mp listed
    obtain ⟨updated, lookup, change⟩ := cancelled.cancelled entry member
    obtain rfl := Option.some.inj (found.symm.trans (current entry member))
    exact ⟨updated, lookup, change.contract⟩
  · exact ⟨stored, (cancelled.others actionId listed).trans found, rfl⟩

theorem ApprovalBoundaryService.ActionsReleased.related
    (released : ApprovalBoundaryService.ActionsReleased selected actions later)
    (current : ∀ entry ∈ selected, actions.get? entry.1 = some entry.2) :
    Table.Keeps (·.action.contract) actions later := by
  refine ⟨⟨released.keys, fun actionId stored found => ?_⟩⟩
  by_cases listed : actionId ∈ selected.map Prod.fst
  · obtain ⟨entry, member, rfl⟩ := List.mem_map.mp listed
    obtain ⟨updated, lookup, change⟩ := released.released entry member
    obtain rfl := Option.some.inj (found.symm.trans (current entry member))
    exact ⟨updated, lookup, change.contract⟩
  · exact ⟨stored, (released.others actionId listed).trans found, rfl⟩

end Related

namespace SamePlan

variable {db middle after : Database}

theorem refl (db : Database) : SamePlan db db where
  steps := .refl _
  operations := .refl _
  actions := .refl _
  control := rfl
  approvalRequired := rfl
  members := rfl

theorem trans (first : SamePlan db middle) (second : SamePlan middle after) :
    SamePlan db after where
  steps := first.steps.trans second.steps
  operations := first.operations.trans second.operations
  actions := first.actions.trans second.actions
  control := second.control.trans first.control
  approvalRequired := second.approvalRequired.trans first.approvalRequired
  members := second.members.trans first.members

end SamePlan

section Commits

variable {db after : Database}

theorem continues_policyHash (control : ∃ before control, db.control = some before ∧
      before.Continues control ∧ after.control = some control) :
    after.control.map (·.policyHash) = db.control.map (·.policyHash) := by
  obtain ⟨before, control, stored, continues, later⟩ := control
  simp [stored, later, continues.policyHash]

theorem currentMembers_congr (head : after.authorizationHead = db.authorizationHead)
    (sets : after.authorizationSets = db.authorizationSets) :
    after.currentMembers = db.currentMembers := by
  simp only [Database.currentMembers, Database.currentAuthorizationSet, head, sets]

theorem ApprovalBoundaryService.SetStored.current
    (stored : SetStored db status after) : ∃ head set later,
      db.currentAuthorizationSet = some (head, set) ∧
      after.currentAuthorizationSet = some (head, later) ∧ later.status = status ∧
      later.members.map (fun member => { member with release := none }) =
        set.members.map (fun member => { member with release := none }) := by
  obtain ⟨head, set, later, current, status, planHash, revision, membership, members, sets⟩ :=
    stored.set
  refine ⟨head, set, later, current, ?_, status, members⟩
  simp only [Database.currentAuthorizationSet, bind, Option.bind_eq_some_iff, Option.guard_eq_some',
    exists_const, Option.pure_def, Option.some.injEq, Prod.mk.injEq] at current ⊢
  obtain ⟨_, pointed, _, found, binds, rfl, rfl⟩ := current
  refine ⟨_, stored.head.trans pointed, later, ?_, ?_, rfl, rfl⟩
  · rw [sets]
    exact Table.get?_set_self found
  · rw [planHash, revision, membership]
    exact binds

theorem ApprovalBoundaryService.SetStored.members
    (stored : SetStored db status after) : after.currentMembers = db.currentMembers := by
  obtain ⟨head, set, later, current, now, _, members⟩ := stored.current
  simp [Database.currentMembers, current, now, members]

theorem ApprovalsChanged.samePlan (changed : ApprovalsChanged db after) : SamePlan db after := by
  rw [changed.frame]
  exact { SamePlan.refl db with actions := changed.actions.related }

theorem TerminalExecutionCleanupService.CleanedUp.samePlan
    (cleanup : CleanedUp db planHash failedStepId focalActionId failedStep after) :
      SamePlan db after := by
  obtain ⟨control, actions, _, _, planned, cancelled, closed⟩ := cleanup.closed
  obtain ⟨before, found, advanced⟩ := cleanup.failed
  have current : ∀ entry ∈ cancellable actions focalActionId,
    db.actions.get? entry.1 = some entry.2 :=
    fun entry member => Table.get?_eq_some_iff.mpr
      ((List.filter_sublist.trans (planActions_sublist planned)).subset member)
  have steps : Table.Keeps RunStep.plan db.steps after.steps := by
    refine ⟨⟨cleanup.keys, fun stepId step present => ?_⟩⟩
    by_cases same : stepId = failedStepId
    · subst same
      obtain rfl := Option.mem_unique present found
      exact ⟨failedStep, cleanup.stored, advanced.plan⟩
    · obtain ⟨cleaned, lookup, change⟩ := closed stepId step same present
      refine ⟨cleaned, lookup, ?_⟩
      unfold SiblingCleaned at change
      split at change
      · exact change.plan
      · exact change.plan
      · exact change.plan
      · obtain ⟨isIdle, _, change⟩ := change
        split at change
        · exact change.plan
        · rw [change]
      all_goals rw [change]
  exact {
    steps
    operations := .of_eq (by rw [cleanup.frame])
    actions := cancelled.related current
    control := by rw [cleanup.frame]
    approvalRequired := cleanup.run.approvalRequired (by simp)
    members := currentMembers_congr (by rw [cleanup.frame]) (by rw [cleanup.frame]) }

theorem RunCancelled.samePlan (cancelled : RunCancelled db after) : SamePlan db after := by
  obtain ⟨control, selected, _, current, actions, _, closed⟩ := cancelled.closed
  have steps : Table.Keeps RunStep.plan db.steps after.steps := by
    refine ⟨⟨cancelled.stepKeys, fun stepId step present => ?_⟩⟩
    obtain ⟨now, lookup, change⟩ := closed stepId step present
    refine ⟨now, lookup, ?_⟩
    unfold StepCancelled at change
    split at change
    · exact change.plan
    · exact change.plan
    · split at change
      · split at change
        · exact change.plan
        · rw [change.1]
      · obtain ⟨_, _, change⟩ := change
        split at change
        · exact change.plan
        · rw [change]
    all_goals rw [change]
  have members : after.currentMembers = db.currentMembers :=
    currentMembers_congr (by rw [cancelled.frame]) (by rw [cancelled.frame])
  obtain ⟨before, later, stored, continues, _, fenced⟩ := cancelled.control
  exact {
    steps
    operations := .of_eq (by rw [cancelled.frame])
    actions := actions.related current
    control := continues_policyHash ⟨before, later, stored, continues, fenced⟩
    approvalRequired := cancelled.run.approvalRequired (by simp)
    members }

theorem ApprovalBoundaryService.SetReleased.samePlan (released : SetReleased db after) :
    SamePlan db after := by
  obtain ⟨head, set, steps, actions, _, _, _, stepsCurrent, actionsCurrent, moved, changed⟩ :=
    released.members
  obtain ⟨before, later, stored, continues, _, started⟩ := released.control
  exact {
    steps := moved.related stepsCurrent
    operations := .of_eq (by rw [released.frame])
    actions := changed.related actionsCurrent
    control := continues_policyHash ⟨before, later, stored, continues, started⟩
    approvalRequired := released.run.approvalRequired (by simp)
    members := released.set.members }

theorem ApprovalBoundaryService.SetClosed.samePlan (closed : SetClosed db after) :
    SamePlan db after where
  steps := by
    refine ⟨⟨closed.stepKeys, fun stepId step present => ?_⟩⟩
    obtain ⟨now, lookup, rejected | cancelled⟩ := closed.steps stepId step present
    · exact ⟨now, lookup, rejected.plan⟩
    · exact ⟨now, lookup, cancelled.plan⟩
  operations := .of_eq (by rw [closed.frame])
  actions := closed.actions.related
  control := by
    rcases closed.control with same | continues
    · rw [same]
    · exact continues_policyHash continues
  approvalRequired := by
    rcases closed.run with rejected | cancelled
    · exact rejected.approvalRequired (by simp)
    · exact cancelled.approvalRequired (by simp)
  members := by
    rcases closed.set with stored | stored
    · exact stored.members
    · exact stored.members

theorem AttemptClosed.samePlan
    (closed : AttemptClosed db stepId completion after) : SamePlan db after := by
  obtain ⟨_, attempt, operation, control, _, found, _, _, stored, _, _, _, later, operations⟩ :=
    closed.accounts
  exact {
    steps := .of_eq (by rw [closed.frame])
    operations := by rw [operations]; exact .of_set found rfl
    actions := .of_eq (by rw [closed.frame])
    control := by simp [stored, later]
    approvalRequired := by rw [closed.frame]
    members := currentMembers_congr (by rw [closed.frame]) (by rw [closed.frame]) }

/-- Only a new plan changes what the rows of a run are bound by. -/
theorem Committed.samePlan (committed : Committed db commit after)
    (established : commit ≠ .planPersisted) : SamePlan db after := by
  cases committed with
  | recorded receipts audits => exact { SamePlan.refl db with }
  | runMoved moved =>
      rw [moved.frame]
      have ordinary := moved.ordinary
      simp only [List.mem_cons, not_or] at ordinary
      exact { SamePlan.refl db with approvalRequired := moved.run.approvalRequired ordinary.1 }
  | planPersisted => exact absurd rfl established
  | planActivated activated =>
      obtain ⟨before, later, stored, continues, _, started⟩ := activated.control
      exact {
        steps := activated.steps.related fun entry member => (Database.mem_stepsWhere.mp member).1
        operations := .of_eq (by rw [activated.frame])
        actions := .of_eq (by rw [activated.frame])
        control := continues_policyHash ⟨before, later, stored, continues, started⟩
        approvalRequired := activated.run.approvalRequired (by simp)
        members := currentMembers_congr (by rw [activated.frame]) (by rw [activated.frame]) }
  | stepMoved moved =>
      have steps := Table.Keeps.of_set moved.found moved.advanced.plan
      rw [← moved.steps] at steps
      rw [moved.frame]
      exact { SamePlan.refl db with steps }
  | stepExecuted executed =>
      have steps := Table.Keeps.of_set executed.found
        (executed.finish.plan.trans executed.start.plan)
      rw [← executed.steps] at steps
      rw [executed.frame]
      exact { SamePlan.refl db with steps }
  | approvalsChanged changed => exact changed.samePlan
  | setReleased decided released => exact decided.samePlan.trans released.samePlan
  | setClosed decided closed => exact decided.samePlan.trans closed.samePlan
  | runCancelled cancelled => exact cancelled.samePlan
  | attemptReserved reserved =>
      obtain ⟨_, control, _, operation, charged, stored, _, _, _, found, _, _, charge, later,
        operations⟩ :=
        reserved.charged
      obtain ⟨chargedRow, _, _⟩ := Database.chargeLogicalCall_effect charge
      exact {
        steps := by
          have step := reserved.step
          generalize after.steps = steps at step ⊢
          cases step with
          | first found _ _ advanced => exact .of_set found advanced.plan
          | retry => exact .refl _
        operations := by rw [operations]; exact .of_set found rfl
        actions := .of_eq (by rw [reserved.frame])
        control := by simp [stored, later, chargedRow]
        approvalRequired := by rw [reserved.frame]
        members := currentMembers_congr (by rw [reserved.frame]) (by rw [reserved.frame]) }
  | attemptClosed closed =>
      obtain ⟨completion, completed, closed, conclusion⟩ := closed
      refine closed.samePlan.trans ?_
      cases conclusion with
      | retry => exact { SamePlan.refl completed with }
      | step _ _ found advanced =>
          exact { SamePlan.refl completed with steps := .of_set found advanced.plan }
      | run _ cleanup => exact { cleanup.samePlan with }
  | callStarted started =>
      obtain ⟨before, later, stored, _, continues, now⟩ := started.control
      obtain ⟨_, _, _, call, _, step, actions⟩ := started.call
      exact {
        steps := step.keeps
        operations := .of_eq (by rw [started.frame])
        actions := by rw [actions]; exact .of_set call.found call.contract
        control := continues_policyHash ⟨before, later, stored, continues, now⟩
        approvalRequired := by rw [started.frame]
        members := currentMembers_congr (by rw [started.frame]) (by rw [started.frame]) }
  | actionReleased released =>
      exact { SamePlan.refl db with actions := .of_set released.found released.contract }
  | actionConcluded concluded =>
      cases concluded with
      | step found concluded stepFound advanced =>
          exact {
            SamePlan.refl db with
            steps := .of_set stepFound advanced.plan
            actions := .of_set found concluded.contract }
      | run found concluded _ cleanup =>
          have kept := (ExternalActionDispatcher.focal_kept cleanup).trans found
          refine cleanup.samePlan.trans ?_
          exact { SamePlan.refl _ with actions := .of_set kept concluded.contract }
  | cleanedUp cleanup => exact { cleanup.samePlan with }

end Commits

end MarketingAgents
