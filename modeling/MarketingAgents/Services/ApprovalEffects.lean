import MarketingAgents.Services.ApprovalBoundaries
import MarketingAgents.Services.CleanupEffects
import MarketingAgents.Services.LifecycleEffects

namespace MarketingAgents

open Library

/-! # What the approval boundary's transactions changed -/

variable {db after : Database} {actionId requestId : String} {expectedVersion : Nat}
  {occurredAt : Time}

/-- An action that waits for its approval, or has it, was decided, reopened or closed. -/
structure StoredAction.Reconsidered (stored updated : StoredAction) : Prop where
  unreleased : stored.action.state ∈ [.awaitingApproval, .approved]
  state : updated.action.state ∈ [.awaitingApproval, .approved, .rejected, .cancelled]
  contract : updated.action.contract = stored.action.contract
  attempts : updated.attempts = stored.attempts

/-- An approved action was reserved for its dispatch. -/
structure StoredAction.Released (stored updated : StoredAction) : Prop where
  approved : stored.action.state = .approved
  uncalled : stored.action.deliveryAttemptCount = 0
  row : ∃ reservation updatedAt, updated.action.toExternalActionRow =
    { stored.action.toExternalActionRow with
      state := .dispatchReserved
      reservation := some reservation
      updatedAt
      version := stored.action.version + 1 }
  attempts : updated.attempts = stored.attempts

/-- Only actions that no release has reached were changed. -/
structure ActionsReconsidered (before after : Table String StoredAction) : Prop where
  keys : after.keys = before.keys
  rows : ∀ actionId, after.get? actionId = before.get? actionId ∨
    ∃ stored updated, before.get? actionId = some stored ∧ after.get? actionId = some updated ∧
      stored.Reconsidered updated

namespace ActionsReconsidered

variable {first second third : Table String StoredAction}

theorem refl (actions : Table String StoredAction) : ActionsReconsidered actions actions :=
  ⟨rfl, fun _ => .inl rfl⟩

theorem trans (left : ActionsReconsidered first second) (right : ActionsReconsidered second third) :
    ActionsReconsidered first third := by
  refine ⟨right.keys.trans left.keys, fun actionId => ?_⟩
  rcases left.rows actionId with same | ⟨stored, middle, found, between, changed⟩
  · rw [← same]
    exact right.rows actionId
  · rcases right.rows actionId with same | ⟨again, updated, lookup, last, later⟩
    · exact .inr ⟨stored, middle, found, same.trans between, changed⟩
    · obtain rfl : middle = again := Option.mem_unique between lookup
      exact .inr ⟨stored, updated, found, last, changed.unreleased, later.state,
        later.contract.trans changed.contract, later.attempts.trans changed.attempts⟩

theorem single (found : first.get? actionId = some stored) (changed : stored.Reconsidered updated) :
      ActionsReconsidered first (first.set actionId updated) := by
  refine ⟨Table.keys_set, fun other => ?_⟩
  by_cases same : other = actionId
  · subst same
    exact .inr ⟨stored, updated, found, Table.get?_set_self found, changed⟩
  · exact .inl (Table.get?_set_ne same)

end ActionsReconsidered

/-- Approval requests and the actions they decide on were changed, and nothing else. -/
structure ApprovalsChanged (db after : Database) : Prop where
  actions : ActionsReconsidered db.actions after.actions
  frame : after = { db with
    actions := after.actions
    approvalRequests := after.approvalRequests
    audits := after.audits }

namespace ApprovalsChanged

theorem refl (db : Database) : ApprovalsChanged db db := ⟨.refl _, rfl⟩

theorem trans (first : ApprovalsChanged db middle)
    (second : ApprovalsChanged middle after) : ApprovalsChanged db after := by
  refine ⟨first.actions.trans second.actions, ?_⟩
  rw [second.frame, first.frame]

end ApprovalsChanged

namespace Database

theorem updateAwaiting_effect {change : ExternalActionRow → ExternalActionRow}
    (changed : db.updateAwaiting actionId expectedVersion states change = some after)
    (unreleased : ∀ state ∈ states, state ∈ [.awaitingApproval, .approved])
    (contract : ∀ row, (change row).contract = row.contract)
    (decided : ∀ row, (change row).state ∈ [.awaitingApproval, .approved, .rejected, .cancelled]) :
    ∃ stored updated, db.action? actionId = some stored ∧ stored.Reconsidered updated ∧
      updated.action.state = (change { stored.action.toExternalActionRow with
        version := stored.action.version + 1 }).state ∧
      after = db.storeAction actionId updated := by
  simp only [updateAwaiting, bind, Option.bind_eq_some_iff, Option.guard_eq_some', exists_const,
    Option.pure_def, Option.some.injEq, ExternalAction.ofRow?_eq_some] at changed
  obtain ⟨stored, found, ⟨_, state, _⟩, action, row, rfl⟩ := changed
  refine ⟨stored, { stored with action }, found, ?_, by rw [row], rfl⟩
  exact {
    unreleased := unreleased _ state
    state := by rw [row]; exact decided _
    contract := by rw [row]; exact contract _
    attempts := rfl }

theorem recordDecision_effect {approve : Bool} {expectedActionVersion : Nat}
    (decided : db.recordDecision requestId decisionId approve expectedVersion expectedActionVersion
      occurredAt = some after) : ApprovalsChanged db after := by
  simp only [recordDecision, bind, Option.bind_eq_some_iff, Option.guard_eq_some', exists_const,
    Option.pure_def, Option.some.injEq] at decided
  obtain ⟨request, _, _, _, changed, rfl⟩ := decided
  obtain ⟨stored, updated, found, reconsidered, _, rfl⟩ := updateAwaiting_effect changed (by simp)
    (fun _ => rfl) (fun _ => by cases approve <;> simp)
  exact ⟨.single found reconsidered, rfl⟩

theorem reopenApproved_effect
    (reopened : db.reopenApproved request expectedVersion occurredAt = some after) :
    ApprovalsChanged db after := by
  unfold reopenApproved at reopened
  split at reopened
  · obtain ⟨stored, updated, found, reconsidered, _, rfl⟩ :=
      updateAwaiting_effect reopened (by simp) (fun _ => rfl) (fun _ => by simp)
    exact ⟨.single found reconsidered, rfl⟩
  · simp only [bind, Option.bind_eq_some_iff, Option.guard_eq_some', exists_const, Option.pure_def,
      Option.some.injEq] at reopened
    obtain ⟨_, _, _, rfl⟩ := reopened
    exact .refl db

theorem markExpired_effect {expectedActionVersion : Nat}
    (expired : db.markExpired requestId expectedVersion expectedActionVersion occurredAt =
      some after) :
    ApprovalsChanged db after := by
  simp only [markExpired, bind, Option.bind_eq_some_iff, Option.guard_eq_some', exists_const,
    Option.pure_def, Option.some.injEq] at expired
  obtain ⟨_, _, _, _, reopened, rfl⟩ := expired
  have changed := reopenApproved_effect reopened
  exact ⟨changed.actions, by rw [changed.frame]⟩

theorem renewExpired_effect {expectedActionVersion : Nat} {expiresAt : Time}
    (renewed : db.renewExpired requestId replacementId expectedVersion
      expectedActionVersion occurredAt expiresAt = some after) : ApprovalsChanged db after := by
  simp only [renewExpired, bind, Option.bind_eq_some_iff, Option.guard_eq_some', exists_const,
    Option.pure_def, Option.some.injEq] at renewed
  obtain ⟨_, _, _, _, _, _, reopened, rfl⟩ := renewed
  have changed := reopenApproved_effect reopened
  exact ⟨changed.actions, by rw [changed.frame]⟩

theorem closeMember_effect {rejecting : Bool}
    (closed : db.closeMember rejecting occurredAt row = some after)
    (found : db.action? row.member.actionId = some stored)
    (current : stored = row.stored ∨ stored.action.state ∈ [.rejected, .cancelled]) :
    ApprovalsChanged db after ∧ ∃ updated, after.action? row.member.actionId = some updated ∧
      updated.action.state ∈ [.rejected, .cancelled] := by
  unfold closeMember at closed
  split at closed
  · rename_i rejected
    obtain rfl : db = after := Option.some.inj closed
    refine ⟨.refl db, stored, found, ?_⟩
    rcases current with rfl | already
    · simp [rejected.2.2]
    · exact already
  · simp only [bind, Option.bind_eq_some_iff] at closed
    obtain ⟨closedDb, changed, rest⟩ := closed
    obtain ⟨same, updated, present, reconsidered, state, rfl⟩ :=
      updateAwaiting_effect changed (by simp) (fun _ => rfl) (fun _ => by simp)
    have lookup : (db.storeAction row.member.actionId updated).action? row.member.actionId =
      some updated :=
      storeAction_action?_self present
    split at rest
    · obtain rfl := Option.some.inj rest
      exact ⟨⟨.single present reconsidered, rfl⟩, updated, lookup, by simp [state]⟩
    · simp only [Option.bind_eq_some_iff, Option.guard_eq_some', exists_const, Option.pure_def,
        Option.some.injEq] at rest
      obtain ⟨_, rfl⟩ := rest
      exact ⟨⟨.single present reconsidered, rfl⟩, updated, lookup, by simp [state]⟩

end Database

namespace ApprovalBoundaryService

/-- A member row was read from the rows that its member names. -/
structure MemberLoaded (db : Database) (row : MemberRow) : Prop where
  action : db.action? row.member.actionId = some row.stored
  step : db.step? row.member.stepId = some row.step
  stepId : row.stored.action.contract.stepId = row.member.stepId

theorem loadMembers_effect {head : AuthorizationSetHead} {set : AuthorizationSet}
    {members : List AuthorizationSetMember} {rows : List MemberRow}
    (loaded : loadMembers db head set members = .ok rows) :
    rows.map (·.member) = members ∧ ∀ row ∈ rows, MemberLoaded db row := by
  induction members generalizing rows with
  | nil =>
      cases loaded
      exact ⟨rfl, by simp⟩
  | cons member rest ih =>
      simp only [loadMembers, loadMember, bind_ok, require_ok, requireSome_ok, pure_ok,
        Prod.exists] at loaded
      obtain ⟨row, ⟨_, _, _, stored, action, step, found, _, bound, rfl⟩, others, remaining, rfl⟩ :=
        loaded
      obtain ⟨members, known⟩ := ih remaining
      refine ⟨by simp [members], ?_⟩
      intro row listed
      rcases List.mem_cons.mp listed with rfl | later
      · exact ⟨action, found, bound.2.2.2.2.1⟩
      · exact known row later

/-- A snapshot holds the current set and the rows of its members. -/
structure SnapshotOf (db : Database) (snapshot : BoundarySnapshot) : Prop where
  current : db.currentAuthorizationSet = some (snapshot.head, snapshot.set)
  members : snapshot.rows.map (·.member) = snapshot.set.members
  loaded : ∀ row ∈ snapshot.rows, MemberLoaded db row
  run : snapshot.run = db.run
  approvalRequired : db.run.approvalRequired = some true

theorem loadCurrent_effect {snapshot : BoundarySnapshot} (loaded : loadCurrent db = .ok snapshot) :
    SnapshotOf db snapshot := by
  simp only [loadCurrent, bind_ok, require_ok, requireSome_ok, pure_ok, Prod.exists] at loaded
  obtain ⟨head, set, current, rows, members, _, ⟨required, _⟩, rfl⟩ := loaded
  obtain ⟨same, known⟩ := loadMembers_effect members
  exact ⟨current, same, known, rfl, required⟩

/-- Every selected action was released and the others were left alone. -/
structure ActionsReleased (selected : List (String × StoredAction))
    (before after : Table String StoredAction) : Prop where
  keys : after.keys = before.keys
  released : ∀ entry ∈ selected, ∃ updated, after.get? entry.1 = some updated ∧
    entry.2.Released updated
  others : ∀ actionId, actionId ∉ selected.map Prod.fst → after.get? actionId = before.get? actionId

theorem releaseMember_effect {runVersion : Nat} {member : AuthorizationSetMember}
    (released : db.releaseMember setId runVersion occurredAt row ids result = some (member, after))
    (loaded : MemberLoaded db row) (advanced : row.step.Advanced .releaseApproval result.step)
    (named : result.transition.stepId = row.member.stepId) :
    ∃ updated stepTransitions approvalUses approvalRequests release,
      row.stored.Released updated ∧ member = { row.member with release := some release } ∧
      after = { db with
        steps := db.steps.set row.member.stepId result.step
        stepTransitions
        actions := db.actions.set row.member.actionId updated
        approvalUses
        approvalRequests } := by
  simp only [Database.releaseMember, bind, Option.bind_eq_some_iff,
    Option.guard_eq_some', exists_const,
    Option.pure_def, Option.some.injEq, Prod.mk.injEq, ExternalAction.ofRow?_eq_some] at released
  obtain ⟨decisionId, _, stepped, applied, stored, found,
    ⟨_, _, _, _, approved, _, uncalled⟩, action, row',
    uses, _, request, _, _, _, rfl, rfl⟩ := released
  obtain ⟨_, _, rfl⟩ := Database.applyStepTransition_current applied loaded.step advanced named
  obtain rfl : row.stored = stored := Option.mem_unique loaded.action found
  let updated : StoredAction := { action, attempts := row.stored.attempts }
  let transitions := db.stepTransitions ++ [result.transition]
  let requests := db.approvalRequests.set row.requestId { request with
    status := .consumed
    version := request.version + 1
    updatedAt := occurredAt }
  let release : MemberRelease := {
    approvalRequestId := row.requestId
    approvalDecisionId := decisionId
    approvalUseId := ids.approvalUseId
    reservationId := ids.reservationId
    releasedStepVersion := result.step.version
    releasedAt := occurredAt }
  exact ⟨updated, transitions, uses, requests, release,
    ⟨approved, uncalled, ⟨_, _, row'⟩, rfl⟩, rfl, rfl⟩

theorem releaseMembers_effect {runVersion : Nat} {newIds : String → ReleaseIds}
    {members : List AuthorizationSetMember}
    (released : releaseMembers setId runVersion occurredAt newIds rows db = .ok (members, after))
    (loaded : ∀ row ∈ rows, MemberLoaded db row)
    (distinctSteps : (rows.map (·.member.stepId)).Nodup)
    (distinctActions : (rows.map (·.member.actionId)).Nodup) :
    ∃ steps stepTransitions actions approvalUses approvalRequests,
      StepsAdvanced .releaseApproval (rows.map fun row => (row.member.stepId, row.step))
        db.steps steps ∧
      ActionsReleased (rows.map fun row => (row.member.actionId, row.stored)) db.actions actions ∧
      members.map (fun member => { member with release := none }) =
        rows.map (fun row => { row.member with release := none }) ∧
      after = { db with steps, stepTransitions, actions, approvalUses, approvalRequests } := by
  induction rows generalizing db members with
  | nil =>
      cases released
      exact ⟨_, _, _, _, _, .none _, ⟨rfl, by simp, fun _ _ => rfl⟩, rfl, rfl⟩
  | cons row rest ih =>
      simp only [releaseMembers, bind_ok, requireSome_ok, pure_ok, Prod.exists,
        Prod.mk.injEq] at released
      obtain ⟨result, transition, member, first, one, others, last, remaining, rfl, rfl⟩ := released
      simp only [List.map_cons, List.nodup_cons, List.mem_map, not_exists,
        not_and] at distinctSteps distinctActions
      have current := loaded row (by simp)
      obtain ⟨advanced, named, _⟩ := transitionStep_effect transition
      obtain ⟨updated, _, _, _, _, changed, rfl, rfl⟩ :=
        releaseMember_effect one current advanced named
      obtain ⟨steps, stepTransitions, actions, approvalUses, approvalRequests, moved,
        reserved, identities, rfl⟩ := ih remaining (by
          intro other listed
          have known := loaded other (by simp [listed])
          refine ⟨?_, ?_, known.stepId⟩
          · rw [Database.action?, Table.get?_set_ne (distinctActions.1 other listed)]
            exact known.action
          · rw [Database.step?, Table.get?_set_ne (distinctSteps.1 other listed)]
            exact known.step) distinctSteps.2 distinctActions.2
      refine ⟨steps, stepTransitions, actions, approvalUses, approvalRequests, ?_, ?_, ?_, rfl⟩
      · refine ⟨moved.keys.trans Table.keys_set, ?_, ?_⟩
        · intro entry listed
          rcases List.mem_cons.mp listed with rfl | later
          · refine ⟨result.step, ?_, advanced⟩
            rw [moved.others row.member.stepId (by simpa using distinctSteps.1)]
            exact Table.get?_set_self current.step
          · exact moved.moved entry later
        · intro stepId unselected
          simp only [List.map_cons, List.mem_cons, not_or] at unselected
          rw [moved.others stepId unselected.2]
          exact Table.get?_set_ne unselected.1
      · refine ⟨reserved.keys.trans Table.keys_set, ?_, ?_⟩
        · intro entry listed
          rcases List.mem_cons.mp listed with rfl | later
          · refine ⟨updated, ?_, changed⟩
            rw [reserved.others row.member.actionId (by simpa using distinctActions.1)]
            exact Table.get?_set_self current.action
          · exact reserved.released entry later
        · intro actionId unselected
          simp only [List.map_cons, List.mem_cons, not_or] at unselected
          rw [reserved.others actionId unselected.2]
          exact Table.get?_set_ne unselected.1
      · simp [identities]

/-- The current set was stored under another status. -/
structure SetStored (db : Database) (status : AuthorizationSetStatus)
    (after : Database) : Prop where
  head : after.authorizationHead = db.authorizationHead
  set : ∃ head set stored, db.currentAuthorizationSet = some (head, set) ∧
    stored.status = status ∧ stored.planHash = set.planHash ∧
    stored.proposalRevision = set.proposalRevision ∧ stored.membershipHash = set.membershipHash ∧
    stored.members.map (fun member => { member with release := none }) =
      set.members.map (fun member => { member with release := none }) ∧
    after.authorizationSets = db.authorizationSets.set head.currentSetId stored

theorem storeSet_effect {changed : Database} {snapshot : BoundarySnapshot}
    {members : List AuthorizationSetMember}
    (current : db.currentAuthorizationSet = some (snapshot.head, snapshot.set))
    (head : changed.authorizationHead = db.authorizationHead)
    (sets : changed.authorizationSets = db.authorizationSets)
    (identities : members.map (fun member => { member with release := none }) =
      snapshot.set.members.map (fun member => { member with release := none })) :
    SetStored db status (storeSet changed snapshot status members setRelease reasonCode occurredAt)
        where
  head
  set := by
    refine ⟨snapshot.head, snapshot.set, { snapshot.set with
      status
      members
      release := setRelease
      version := snapshot.set.version + 1
      updatedAt := occurredAt
      terminalReasonCode := some reasonCode }, current, rfl, rfl, rfl, rfl, identities, ?_⟩
    simp only [storeSet, sets]

/-- The complete current set was released and the deadline of its run was started. -/
structure SetReleased (db after : Database) : Prop where
  waiting : db.run.state = .awaitingApproval
  run : db.run.Advanced .releaseApprovedPlan after.run
  control : ∃ before control, db.control = some before ∧ before.Continues control ∧
    control.window ≠ none ∧ after.control = some control
  members : ∃ head set steps actions, db.currentAuthorizationSet = some (head, set) ∧
    steps.map Prod.fst = set.members.map (·.stepId) ∧
    actions.map Prod.fst = set.members.map (·.actionId) ∧
    (∀ entry ∈ steps, db.step? entry.1 = some entry.2) ∧
    (∀ entry ∈ actions, db.action? entry.1 = some entry.2) ∧
    StepsAdvanced .releaseApproval steps db.steps after.steps ∧
    ActionsReleased actions db.actions after.actions
  set : SetStored db .released after
  frame : after = { db with
    run := after.run
    runTransitions := after.runTransitions
    steps := after.steps
    stepTransitions := after.stepTransitions
    control := after.control
    actions := after.actions
    authorizationSets := after.authorizationSets
    approvalRequests := after.approvalRequests
    approvalUses := after.approvalUses
    audits := after.audits }

/-- No two members of the current set share an action or a step. -/
def MembersDistinct (db : Database) : Prop :=
  ∀ head set, db.currentAuthorizationSet = some (head, set) →
    (set.members.map (·.stepId)).Nodup ∧ (set.members.map (·.actionId)).Nodup

theorem release_effect {newIds : String → ReleaseIds}
    (released : release db snapshot releaseHash newIds occurredAt = .ok after)
    (loaded : SnapshotOf db snapshot) (distinct : MembersDistinct db) : SetReleased db after := by
  simp only [release, bind_ok, require_ok, requireSome_ok, pure_ok, Prod.exists] at released
  obtain ⟨runResult, _, runAdvanced, members, _, reserved, _, _, _, _, started, starts, rfl⟩ :=
    released
  obtain ⟨run, rfl⟩ := Database.advanceRun_effect runAdvanced
  obtain ⟨distinctSteps, distinctActions⟩ := distinct _ _ loaded.current
  rw [← loaded.members, List.map_map] at distinctSteps distinctActions
  obtain ⟨steps, _, actions, _, _, moved, changed, identities, rfl⟩ :=
    releaseMembers_effect reserved (fun row listed =>
      have known := loaded.loaded row listed
      ⟨known.action, known.step, known.stepId⟩) distinctSteps distinctActions
  obtain ⟨before, control, stored, continues, opened, rfl⟩ :=
    Database.startExecution_continues starts
  exact {
    waiting := run.moved.1
    run
    control := ⟨before, control, stored, continues, opened, rfl⟩
    members := ⟨snapshot.head, snapshot.set, _, _, loaded.current,
      by simp [← loaded.members, Function.comp_def], by simp [← loaded.members,
          Function.comp_def], by
        intro entry listed
        obtain ⟨row, member, rfl⟩ := List.mem_map.mp listed
        exact (loaded.loaded row member).step, by
        intro entry listed
        obtain ⟨row, member, rfl⟩ := List.mem_map.mp listed
        exact (loaded.loaded row member).action, moved, changed⟩
    set :=
      have stored := storeSet_effect loaded.current rfl rfl
        (by rw [identities, ← loaded.members, List.map_map]; rfl)
      ⟨stored.head, stored.set⟩
    frame := rfl }

end ApprovalBoundaryService

end MarketingAgents
