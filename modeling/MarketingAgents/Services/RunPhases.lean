import MarketingAgents.Services.ActionEvents
import MarketingAgents.Services.ServiceSoundness

namespace MarketingAgents

open Library

/-! # What each phase of a run says about its rows -/

/-- The members of the current set name the steps of the actions they name. -/
structure MemberBinding (db : Database) : Prop where
  keyed : ∀ actionId stored step, db.action? actionId = some stored →
    db.step? stored.action.contract.stepId = some step → stored.action.contract.stepKey = step.key
  owned : ∀ members, db.currentMembers = some members → ∀ actionId stored,
    db.action? actionId = some stored →
    ∃ member ∈ members, member.actionId = actionId ∧ member.stepId = stored.action.contract.stepId
  headless : db.run.approvalRequired ≠ some true → db.authorizationHead = none

/-- What has not started before a run is executing, and what is over once it is. -/
structure RunPhase (db : Database) : Prop where
  waits : ∀ stepId step, db.step? stepId = some step → step.state = .awaitingApproval →
    step.effect = .write
  unattempted : db.run.state ∈ [.planned, .awaitingApproval] → ∀ stepId operation,
    db.operations.get? stepId = some operation → operation.attempts = []
  undelivered : db.run.state ∈ [.planned, .awaitingApproval] → ∀ actionId stored,
    db.action? actionId = some stored →
    stored.action.state ∈ [.awaitingApproval, .approved, .rejected, .cancelled]
  approvedSteps : db.run.state = .executing → ∀ stepId step, db.step? stepId = some step →
    step.state ≠ .awaitingApproval
  approvedActions : db.run.state = .executing →
    ∀ actionId stored, db.action? actionId = some stored →
    stored.action.state ∉ [.awaitingApproval, .approved]
  released : db.run.state = .executing → db.run.approvalRequired = some true →
    ∃ head set, db.currentAuthorizationSet = some (head, set) ∧ set.status = .released
  delivering : ∀ stepId step, db.step? stepId = some step → step.effect = .write →
    step.state = .executing → ∃ actionId stored, db.action? actionId = some stored ∧
      stored.action.contract.stepId = stepId ∧
      stored.action.state ∈ [.dispatchReserved, .dispatching]
  completed : db.run.state = .completed → ∀ stepId step, db.step? stepId = some step →
    step.state = .succeeded

theorem ApprovalEpoch.member_keyed {epoch : ApprovalEpoch}
    (bound : epoch.membersBind planHash steps)
    {member : AuthorizationSetMember} (listed : member ∈ epoch.set.members) :
    ∃ step, steps.get? member.stepId = some step ∧ step.key = member.stepKey := by
  simp only [membersBind, Bool.and_eq_true, List.all_eq_true, List.any_eq_true,
    decide_eq_true_eq] at bound
  obtain ⟨_, step, stepListed, ⟨named, _⟩, key⟩ := bound.1.1.2 member listed
  exact ⟨step.2, Table.get?_eq_some_iff.mpr (by rw [← named]; exact stepListed), key⟩

section

variable {db after : Database} {commit : Commit} {stepId actionId : String} {step now : RunStep}

namespace MemberBinding

theorem of_received (received : Received db) : MemberBinding db where
  keyed := by simp [Database.action?, received.actions]
  owned := by simp [Database.action?, received.actions]
  headless := fun _ => received.head

theorem of_samePlan (bound : MemberBinding db) (same : SamePlan db after)
    (head : after.authorizationHead = db.authorizationHead) : MemberBinding after where
  keyed := by
    intro actionId stored step found lookup
    obtain ⟨before, earlier, contract⟩ := same.actions.source found
    rw [contract] at lookup ⊢
    obtain ⟨planned, present, plan⟩ := same.steps.source lookup
    exact (bound.keyed actionId before planned earlier present).trans
      (RunStep.key_of_plan plan).symm
  owned := by
    intro members current actionId stored found
    obtain ⟨before, earlier, contract⟩ := same.actions.source found
    rw [contract]
    exact bound.owned members (same.members ▸ current) actionId before earlier
  headless := by
    intro direct
    rw [same.approvalRequired] at direct
    exact head.trans (bound.headless direct)

theorem persisted (persisted : PlanPersisted db plan after) (sound : Sound db) :
    MemberBinding after := by
  have undecided := sound.undecided (by simp [persisted.validated])
  obtain ⟨_, _, noActions, _, headless⟩ := sound.binding.unplanned undecided
  refine { keyed := ?_, owned := ?_, headless := ?_ }
  · intro actionId stored step found lookup
    obtain ⟨epoch, proposed, present⟩ := persisted.action_epoch noActions found
    have bound := (plan.approvalBound epoch proposed).2.1
    obtain ⟨member, listed, _, memberProposed⟩ := epoch.action_member bound present
    obtain ⟨planned, sealed, key⟩ := epoch.member_keyed bound listed
    obtain ⟨again, source, plans⟩ := persisted.source lookup
    rw [memberProposed.row.2.2.2] at source
    obtain rfl := Option.mem_unique sealed source
    have row := memberProposed.proposed
    simp only [ApprovalEpoch.actionProposed, Bool.and_eq_true, decide_eq_true_eq] at row
    exact row.2.trans (key.symm.trans (RunStep.key_of_plan plans).symm)
  · intro members current actionId stored found
    obtain ⟨epoch, proposed, rfl⟩ := persisted.members headless current
    obtain ⟨again, same, present⟩ := persisted.action_epoch noActions found
    obtain rfl : epoch = again := Option.mem_unique proposed same
    obtain ⟨member, listed, named, memberProposed⟩ :=
      epoch.action_member (plan.approvalBound epoch proposed).2.1 present
    exact ⟨_, List.mem_map_of_mem listed, named, memberProposed.row.2.2.2.symm⟩
  · intro direct
    have approvals := persisted.approvals
    unfold SealedPlan.ApprovalsInstalled at approvals
    cases proposed : plan.epoch with
    | none =>
        simp only [proposed] at approvals
        exact approvals.2.1.trans headless
    | some epoch =>
        simp [persisted.approvalRequired, SealedPlan.containsWriteActions, proposed] at direct

end MemberBinding

theorem StepEvent.awaiting_kept (event : StepEvent db commit stepId step now)
    (awaiting : now.state = .awaitingApproval) : now = step := by
  cases event with
  | kept => rfl
  | readied advanced | released advanced | started advanced | attempted advanced
  | called advanced =>
      have target := advanced.moved.2.2
      simp [awaiting] at target
  | executed _ finish =>
      have target := finish.moved.2
      simp [awaiting] at target
  | @closed command _ ends advanced =>
      have target := advanced.moved
      cases command with
      | succeed | fail | reject | cancel | skip =>
          have closed := target.2
          simp [awaiting] at closed
      | _ => simp at ends

theorem StepEvent.executing_write (event : StepEvent db commit stepId step now)
    (write : now.effect = .write) (executing : now.state = .executing) :
    now = step ∨ ∃ actionId stored, commit = .callStarted actionId ∧
      db.action? actionId = some stored ∧ stored.action.contract.stepId = stepId := by
  cases event with
  | kept => exact .inl rfl
  | readied advanced | released advanced =>
      have target := advanced.moved.2.2
      simp [executing] at target
  | started advanced | attempted advanced =>
      have read := advanced.moved.2.1
      rw [← advanced.identity.2.1, write] at read
      cases read
  | called advanced _ started found own => exact .inr ⟨_, _, started, found, own⟩
  | executed _ finish =>
      have target := finish.moved.2
      simp [executing] at target
  | @closed command _ ends advanced =>
      have target := advanced.moved
      cases command with
      | succeed | fail | reject | cancel | skip =>
          have closed := target.2
          simp [executing] at closed
      | _ => simp at ends

variable {stored later : StoredAction}

theorem StoredAction.Released.state (reserved : stored.Released later) :
    later.action.state = .dispatchReserved := by
  obtain ⟨_, _, row⟩ := reserved.row
  rw [row]

theorem CallStarted.state (started : CallStarted db actionId authority stored later) :
      later.action.state = .dispatching := by
  obtain ⟨_, _, _, _, row, _⟩ := started.action
  rw [row]

theorem ExternalActionDispatcher.ActionReleased.state
    (released : ExternalActionDispatcher.ActionReleased db actionId stored later) :
    later.action.state = .dispatchReserved := by
  obtain ⟨_, row⟩ := released.row
  rw [row]
  rfl

theorem StoredAction.Concluded.state (concluded : stored.Concluded outcome later) :
    later.action.state = outcome.actionState := by
  obtain ⟨_, _, _, row⟩ := concluded.row
  rw [row]
  rfl

theorem StoredAction.CancelledPreCall.state (cancelled : stored.CancelledPreCall later) :
    later.action.state = .cancelled := by
  obtain ⟨_, _, row⟩ := cancelled.row
  rw [row]
  rfl

theorem WriteOutcome.actionState_final (outcome : WriteOutcome) :
    outcome.actionState ∈ [.succeeded, .failed, .outcomeUnknown] := by
  cases outcome <;> simp [actionState]

theorem ActionEvent.unapproved (event : ActionEvent db commit actionId stored later)
    (waits : later.action.state ∈ [.awaitingApproval, .approved]) :
    stored.action.state ∈ [.awaitingApproval, .approved] := by
  cases event with
  | kept => exact waits
  | reconsidered changed => exact changed.unreleased
  | released _ _ reserved => simp [reserved.state] at waits
  | called _ call => simp [call.state] at waits
  | retried _ released => simp [released.state] at waits
  | @concluded outcome _ _ change =>
      have final := outcome.actionState_final
      rw [← change.state] at final
      generalize later.action.state = state at waits final
      cases state <;> simp at waits final
  | cancelled _ change => simp [change.state] at waits

theorem ActionEvent.undelivered (event : ActionEvent db commit actionId stored later)
    (unreleased : commit ≠ .setReleased)
    (waits : stored.action.state ∈ [.awaitingApproval, .approved, .rejected, .cancelled]) :
    later.action.state ∈ [.awaitingApproval, .approved, .rejected, .cancelled] := by
  cases event with
  | kept => exact waits
  | reconsidered changed => exact changed.state
  | released crossed => exact absurd crossed unreleased
  | called _ call => simp [call.reserved] at waits
  | retried _ released => simp [released.dispatching] at waits
  | concluded _ change => simp [change.dispatching] at waits
  | cancelled _ change => simp [change.state]

/-- A run begins to execute by the activation of a read-only plan or by a release. -/
theorem Committed.executing_cases (sound : Sound db) (committed : Committed db commit after)
    (established : commit ≠ .planPersisted) (executing : after.run.state = .executing) :
    after.run = db.run ∨ db.run.approvalRequired = some false ∨
      ∃ middle, ApprovalsChanged db middle ∧ ApprovalBoundaryService.SetReleased middle after ∧
        commit = .setReleased := by
  have ended : ∀ state, after.run.state = state → state ≠ .executing → False :=
      fun state target differs =>
    differs (target.symm.trans executing)
  cases committed with
  | recorded | actionReleased => exact .inl rfl
  | planPersisted => exact absurd rfl established
  | runMoved moved =>
      rename_i command
      have target := moved.run.moved
      have limited := moved.ordinary
      cases command with
      | receive => exact target.elim
      | recordPlan | releaseApprovedPlan | rejectApproval => simp at limited
      | markValidated | complete => exact (ended _ target.2.1 (by simp)).elim
      | fail | cancel => exact (ended _ target.1 (by simp)).elim
      | activatePlan =>
          have direct := (moved.uncontrolled (by simp)).1
          have decided := sound.decided (by simp [target.1])
          cases required : db.run.approvalRequired with
          | none => exact absurd required decided
          | some writes =>
              cases writes with
              | true => exact absurd required direct
              | false => exact .inr (.inl rfl)
  | planActivated activated => exact .inr (.inl activated.readOnly)
  | stepMoved moved => exact .inl (by rw [moved.frame])
  | stepExecuted executed => exact .inl (by rw [executed.frame])
  | approvalsChanged changed => exact .inl (by rw [changed.frame])
  | setReleased decided released => exact .inr (.inr ⟨_, decided, released, rfl⟩)
  | setClosed _ closed =>
      rcases closed.run with rejected | cancelled
      · exact (ended _ rejected.moved.2.1 (by simp)).elim
      · exact (ended _ cancelled.moved.1 (by simp)).elim
  | runCancelled cancelled => exact (ended _ cancelled.run.moved.1 (by simp)).elim
  | attemptReserved reserved => exact .inl (by rw [reserved.frame])
  | attemptClosed closed =>
      obtain ⟨_, completed, closed, conclusion⟩ := closed
      cases conclusion with
      | retry | step => exact .inl (by rw [closed.frame])
      | run _ cleanup => exact (ended _ cleanup.run.moved.1 (by simp)).elim
  | callStarted started => exact .inl (by rw [started.frame])
  | actionConcluded concluded =>
      cases concluded with
      | step => exact .inl rfl
      | run _ _ _ cleanup => exact (ended _ cleanup.run.moved.1 (by simp)).elim
  | cleanedUp cleanup => exact (ended _ cleanup.run.moved.1 (by simp)).elim

theorem Committed.waiting_kept (committed : Committed db commit after)
    (established : commit ≠ .planPersisted)
    (waits : after.run.state ∈ [.planned, .awaitingApproval]) :
    after.run = db.run := by
  rcases committed.run established with same | ⟨command, ordinary, direct, advanced⟩
  · exact same
  · have target := advanced.moved
    cases command with
    | receive => exact target.elim
    | recordPlan => exact absurd rfl ordinary
    | markValidated | complete | releaseApprovedPlan | rejectApproval => simp [target.2.1] at waits
    | fail | cancel => simp [target.1] at waits
    | activatePlan => simp [target.2.2, if_neg (direct rfl)] at waits

/-- A cleanup that leaves a WRITE step executing leaves its action alone. -/
theorem TerminalExecutionCleanupService.CleanedUp.own_kept
    (cleanup : CleanedUp middle planHash failedStepId focalActionId failedStep after)
    (lookup : after.step? stepId = some now) (write : now.effect = .write)
    (executing : now.state = .executing) (found : middle.action? actionId = some stored)
    (own : stored.action.contract.stepId = stepId) :
    stepId ≠ failedStepId ∧ after.action? actionId = some stored := by
  obtain ⟨control, actions, _, _, planned, cancelled, closed⟩ := cleanup.closed
  have differs : stepId ≠ failedStepId := by
    rintro rfl
    obtain ⟨_, _, advanced⟩ := cleanup.failed
    obtain rfl := Option.mem_unique lookup cleanup.stored
    have target := advanced.moved.2
    simp [executing] at target
  obtain ⟨step, present⟩ := Table.mem_keys_iff.mp
    (cleanup.keys ▸ Table.mem_keys_iff.mpr ⟨now, lookup⟩ : stepId ∈ middle.steps.keys)
  obtain ⟨again, same, change⟩ := closed stepId step differs present
  obtain rfl := Option.mem_unique lookup same
  refine ⟨differs, (cancelled.others actionId fun listed => ?_).trans found⟩
  obtain ⟨entry, member, named⟩ := List.mem_map.mp listed
  have current : middle.action? entry.1 = some entry.2 :=
    Table.get?_eq_some_iff.mpr
      ((List.filter_sublist.trans (planActions_sublist planned)).subset member)
  rw [named, found] at current
  have cancels : stepId ∈ (cancellable actions focalActionId).map fun entry =>
      entry.2.action.contract.stepId := by
    refine List.mem_map.mpr ⟨entry, member, ?_⟩
    rw [← Option.some.inj current]
    exact own
  unfold SiblingCleaned at change
  cases state : step.state with
  | pending | ready | awaitingApproval =>
      simp only [state] at change
      have target := change.moved.2
      simp [executing] at target
  | executing =>
      simp only [state] at change
      obtain ⟨isIdle, idle, change⟩ := change
      cases isIdle with
      | true =>
          have target := change.moved.2
          simp [executing] at target
      | false =>
          obtain rfl : now = step := change
          rw [idleSibling, if_pos write] at idle
          exact of_decide_eq_false (Except.ok.inj idle) cancels
  | succeeded | failed | rejected | cancelled | skipped =>
      simp only [state] at change
      rw [change, state] at executing
      cases executing

theorem RunCancelled.own_kept (cancelled : RunCancelled db after)
    (lookup : after.step? stepId = some now)
    (write : now.effect = .write) (executing : now.state = .executing)
    (found : db.action? actionId = some stored) (own : stored.action.contract.stepId = stepId) :
    after.action? actionId = some stored := by
  obtain ⟨control, selected, _, current, swept, _, closed⟩ := cancelled.closed
  obtain ⟨step, present⟩ := Table.mem_keys_iff.mp
    (cancelled.stepKeys ▸ Table.mem_keys_iff.mpr ⟨now, lookup⟩ : stepId ∈ db.steps.keys)
  obtain ⟨again, same, change⟩ := closed stepId step present
  obtain rfl := Option.mem_unique lookup same
  refine (swept.others actionId fun listed => ?_).trans found
  obtain ⟨entry, member, named⟩ := List.mem_map.mp listed
  have stored' := current entry member
  rw [named, found] at stored'
  have cancels : stepId ∈ selected.map (·.2.action.contract.stepId) := by
    refine List.mem_map.mpr ⟨entry, member, ?_⟩
    rw [← Option.some.inj stored']
    exact own
  unfold StepCancelled at change
  cases state : step.state with
  | pending | ready =>
      simp only [state] at change
      have target := change.moved.2
      simp [executing] at target
  | executing =>
      simp only [state] at change
      have write' : step.effect = .write := by
        split at change
        · assumption
        · obtain ⟨_, _, change⟩ := change
          split at change
          · rw [← change.identity.2.1, write]
          · rw [← change, write]
      rw [if_pos write', if_pos cancels] at change
      have target := change.moved.2
      simp [executing] at target
  | awaitingApproval | succeeded | failed | rejected | cancelled | skipped =>
      simp only [state] at change
      rw [change, state] at executing
      cases executing

theorem WriteConcluded.own_kept
    (concluded : WriteConcluded db focal outcome after) (lookup : after.step? stepId = some now)
    (write : now.effect = .write) (executing : now.state = .executing)
    (found : db.action? actionId = some stored) (own : stored.action.contract.stepId = stepId) :
    after.action? actionId = some stored := by
  cases concluded with
  | step present change stepFound advanced =>
      have differs : actionId ≠ focal := by
        rintro rfl
        obtain rfl := Option.mem_unique found present
        rw [Database.step?, ← own, Table.get?_set_self stepFound, Option.some.injEq] at lookup
        subst lookup
        have target := advanced.moved
        cases outcome <;> simp [WriteOutcome.stepCommand, WriteOutcome.reasonCode,
          StepLifecycleCommand.Moves, executing] at target
      exact (Table.get?_set_ne differs).trans found
  | run present change _ cleanup =>
      obtain ⟨differs, kept⟩ := cleanup.own_kept lookup write executing found own
      have other : actionId ≠ focal := by
        rintro rfl
        obtain rfl := Option.mem_unique found present
        exact differs own.symm
      exact (Table.get?_set_ne other).trans kept

/-- The action of a WRITE step that stays executing stays on its way to its delivery. -/
theorem Committed.delivering_kept (committed : Committed db commit after)
    (established : commit ≠ .planPersisted) (lookup : after.step? stepId = some now)
    (write : now.effect = .write) (executing : now.state = .executing)
    (found : db.action? actionId = some stored) (own : stored.action.contract.stepId = stepId)
    (delivering : stored.action.state ∈ [.dispatchReserved, .dispatching]) :
    ∃ later, after.action? actionId = some later ∧
      later.action.state ∈ [.dispatchReserved, .dispatching] := by
  obtain ⟨later, present, event⟩ := committed.actionEvent established found
  refine ⟨later, present, ?_⟩
  cases event with
  | kept => exact delivering
  | reconsidered changed =>
      have unreleased := changed.unreleased
      generalize stored.action.state = state at delivering unreleased
      cases state <;> simp at delivering unreleased
  | released _ _ reserved => simp [reserved.state]
  | called _ call => simp [call.state]
  | retried _ released => simp [released.state]
  | concluded ended change =>
      subst ended
      cases committed with
      | actionConcluded concluded =>
          have kept := concluded.own_kept lookup write executing found own
          obtain rfl := Option.mem_unique present kept
          exact delivering
  | cancelled swept change =>
      have kept : after.action? actionId = some stored := by
        cases committed with
        | runCancelled cancelled => exact cancelled.own_kept lookup write executing found own
        | attemptClosed closed =>
            obtain ⟨_, completed, closed, conclusion⟩ := closed
            have same : completed.action? actionId = some stored := by
              rw [closed.frame]
              exact found
            cases conclusion with
            | retry | step => exact same
            | run _ cleanup => exact (cleanup.own_kept lookup write executing same own).2
        | actionConcluded concluded => exact concluded.own_kept lookup write executing found own
        | cleanedUp cleanup => exact (cleanup.own_kept lookup write executing found own).2
        | _ => cases swept
      obtain rfl := Option.mem_unique present kept
      exact delivering

theorem Committed.sets_kept (committed : Committed db commit after)
    (established : commit ≠ .planPersisted)
    (unreleased : commit ≠ .setReleased) (unclosed : commit ≠ .setClosed) :
    after.currentAuthorizationSet = db.currentAuthorizationSet := by
  have head := committed.head established
  have sets : after.authorizationSets = db.authorizationSets := by
    cases committed with
    | recorded | actionReleased => rfl
    | planPersisted => exact absurd rfl established
    | runMoved moved => rw [moved.frame]
    | planActivated activated => rw [activated.frame]
    | stepMoved moved => rw [moved.frame]
    | stepExecuted executed => rw [executed.frame]
    | approvalsChanged changed => rw [changed.frame]
    | setReleased => exact absurd rfl unreleased
    | setClosed => exact absurd rfl unclosed
    | runCancelled cancelled => rw [cancelled.frame]
    | attemptReserved reserved => rw [reserved.frame]
    | attemptClosed closed =>
        obtain ⟨_, _, closed, conclusion⟩ := closed
        cases conclusion with
        | retry | step => rw [closed.frame]
        | run _ cleanup => rw [cleanup.frame, closed.frame]
    | callStarted started => rw [started.frame]
    | actionConcluded concluded =>
        cases concluded with
        | step => rfl
        | run _ _ _ cleanup => rw [cleanup.frame]
    | cleanedUp cleanup => rw [cleanup.frame]
  simp only [Database.currentAuthorizationSet, head, sets]

theorem MemberBinding.released (bound : MemberBinding db) (decided : ApprovalsChanged db middle)
    (released : ApprovalBoundaryService.SetReleased middle after)
    (found : db.action? actionId = some stored) :
    (∃ later, after.action? actionId = some later ∧ later.action.state = .dispatchReserved) ∧
      ∃ now, after.step? stored.action.contract.stepId = some now ∧ now.state = .ready := by
  obtain ⟨head, set, steps, actions, current, stepIds, actionIds, stepsCurrent,
    actionsCurrent, moved, changed⟩ := released.members
  have members : db.currentMembers = some (set.members.map fun member =>
      { member with release := none }) := by
    rw [← decided.samePlan.members, Database.currentMembers, current, Option.map_some]
  obtain ⟨_, listed, named, own⟩ := bound.owned _ members actionId stored found
  obtain ⟨member, source, rfl⟩ := List.mem_map.mp listed
  constructor
  · have selected : actionId ∈ actions.map Prod.fst := by
      rw [actionIds, ← named]
      exact List.mem_map.mpr ⟨member, source, rfl⟩
    obtain ⟨entry, chosen, rfl⟩ := List.mem_map.mp selected
    obtain ⟨later, lookup, reserved⟩ := changed.released entry chosen
    exact ⟨later, lookup, reserved.state⟩
  · have selected : stored.action.contract.stepId ∈ steps.map Prod.fst := by
      rw [stepIds, ← own]
      exact List.mem_map.mpr ⟨member, source, rfl⟩
    obtain ⟨entry, chosen, same⟩ := List.mem_map.mp selected
    obtain ⟨now, lookup, advanced⟩ := moved.moved entry chosen
    exact ⟨now, same ▸ lookup, advanced.moved.2.2⟩

/-- A run is completed by its own command and by nothing else. -/
theorem Committed.completed_cases (committed : Committed db commit after)
    (established : commit ≠ .planPersisted) (completed : after.run.state = .completed) :
    after.run = db.run ∨ commit = .runMoved .complete := by
  have ended : ∀ state, after.run.state = state → state ≠ .completed → False :=
      fun state target differs =>
    differs (target.symm.trans completed)
  cases committed with
  | recorded | actionReleased => exact .inl rfl
  | planPersisted => exact absurd rfl established
  | runMoved moved =>
      rename_i command
      have target := moved.run.moved
      have limited := moved.ordinary
      cases command with
      | receive => exact target.elim
      | recordPlan | releaseApprovedPlan | rejectApproval => simp at limited
      | markValidated => exact (ended _ target.2.1 (by simp)).elim
      | fail | cancel => exact (ended _ target.1 (by simp)).elim
      | activatePlan => exact (ended _ target.2.2 (by split <;> simp)).elim
      | complete => exact .inr rfl
  | planActivated activated => exact (ended _ activated.run.moved.2.2 (by split <;> simp)).elim
  | stepMoved moved => exact .inl (by rw [moved.frame])
  | stepExecuted executed => exact .inl (by rw [executed.frame])
  | approvalsChanged changed => exact .inl (by rw [changed.frame])
  | setReleased _ released => exact (ended _ released.run.moved.2.1 (by simp)).elim
  | setClosed _ closed =>
      rcases closed.run with rejected | cancelled
      · exact (ended _ rejected.moved.2.1 (by simp)).elim
      · exact (ended _ cancelled.moved.1 (by simp)).elim
  | runCancelled cancelled => exact (ended _ cancelled.run.moved.1 (by simp)).elim
  | attemptReserved reserved => exact .inl (by rw [reserved.frame])
  | attemptClosed closed =>
      obtain ⟨_, completed, closed, conclusion⟩ := closed
      cases conclusion with
      | retry | step => exact .inl (by rw [closed.frame])
      | run _ cleanup => exact (ended _ cleanup.run.moved.1 (by simp)).elim
  | callStarted started => exact .inl (by rw [started.frame])
  | actionConcluded concluded =>
      cases concluded with
      | step => exact .inl rfl
      | run _ _ _ cleanup => exact (ended _ cleanup.run.moved.1 (by simp)).elim
  | cleanedUp cleanup => exact (ended _ cleanup.run.moved.1 (by simp)).elim

theorem Committed.step_source (committed : Committed db commit after) (sound : Sound db)
    (established : commit ≠ .planPersisted) (lookup : after.step? stepId = some now) :
    ∃ step, db.step? stepId = some step ∧ now.plan = step.plan ∧
      StepEvent db commit stepId step now := by
  obtain ⟨step, found, plans⟩ := (committed.samePlan established).steps.source lookup
  obtain ⟨again, same, event⟩ := committed.stepEvent sound.binding established found
  obtain rfl := Option.mem_unique lookup same
  exact ⟨step, found, plans, event⟩

theorem Committed.action_source (committed : Committed db commit after)
    (established : commit ≠ .planPersisted) (lookup : after.action? actionId = some later) :
    ∃ stored, db.action? actionId = some stored ∧ later.action.contract = stored.action.contract ∧
      ActionEvent db commit actionId stored later := by
  obtain ⟨stored, found, contract⟩ := (committed.samePlan established).actions.source lookup
  obtain ⟨again, same, event⟩ := committed.actionEvent established found
  obtain rfl := Option.mem_unique lookup same
  exact ⟨stored, found, contract, event⟩

namespace RunPhase

theorem of_received (received : Received db) : RunPhase db where
  waits := by simp [Database.step?, received.steps]
  unattempted := by simp [received.state]
  undelivered := by simp [received.state]
  approvedSteps := by simp [received.state]
  approvedActions := by simp [received.state]
  released := by simp [received.state]
  delivering := by simp [Database.step?, received.steps]
  completed := by simp [received.state]

theorem persisted (persisted : PlanPersisted db plan after) (sound : Sound db) :
    RunPhase after := by
  have undecided := sound.undecided (by simp [persisted.validated])
  have waits := persisted.run
  have notExecuting : after.run.state ≠ .executing := by
    rw [waits]
    split <;> simp
  refine {
    waits := ?_
    unattempted := ?_
    undelivered := ?_
    approvedSteps := fun executing => absurd executing notExecuting
    approvedActions := fun executing => absurd executing notExecuting
    released := fun executing => absurd executing notExecuting
    delivering := ?_
    completed := ?_ }
  · intro stepId step found awaiting
    rcases persisted.step_waits found with pending | ⟨_, write⟩
    · rw [pending] at awaiting
      cases awaiting
    · exact write
  · intro _ stepId operation found
    rw [persisted.operations] at found
    exact (plan.operation_fresh found).1
  · intro _ actionId stored found
    simp [(persisted.action_fresh (sound.binding.unplanned undecided).2.2.1 found).1]
  · intro stepId step found _ executing
    rcases persisted.step_waits found with pending | ⟨awaiting, _⟩
    · simp [pending] at executing
    · simp [awaiting] at executing
  · intro completed
    rw [waits] at completed
    split at completed <;> cases completed

theorem waits_kept (phase : RunPhase db) (sound : Sound db) (committed : Committed db commit after)
    (established : commit ≠ .planPersisted) : ∀ stepId step, after.step? stepId = some step →
    step.state = .awaitingApproval → step.effect = .write := by
  intro stepId now lookup awaiting
  obtain ⟨step, found, _, event⟩ := committed.step_source sound established lookup
  obtain rfl := event.awaiting_kept awaiting
  exact phase.waits stepId now found awaiting

theorem unattempted_kept (phase : RunPhase db) (committed : Committed db commit after)
    (established : commit ≠ .planPersisted) : after.run.state ∈ [.planned, .awaitingApproval] →
    ∀ stepId operation, after.operations.get? stepId = some operation →
      operation.attempts = [] := by
  intro waiting stepId operation found
  have same := committed.waiting_kept established waiting
  rw [same] at waiting
  cases attempts : operation.attempts with
  | nil => rfl
  | cons attempt rest =>
      rcases committed.attempt_source established found
        (show attempt ∈ operation.attempts by simp [attempts]) with
        ⟨before, present, earlier, listed, _⟩ | ⟨reserves, _⟩
      · simp [phase.unattempted waiting stepId before present] at listed
      · subst reserves
        cases committed with
        | attemptReserved reserved => simp [reserved.executing] at waiting

theorem undelivered_kept (phase : RunPhase db) (committed : Committed db commit after)
    (established : commit ≠ .planPersisted) : after.run.state ∈ [.planned, .awaitingApproval] →
    ∀ actionId stored, after.action? actionId = some stored →
      stored.action.state ∈ [.awaitingApproval, .approved, .rejected, .cancelled] := by
  intro waiting actionId later lookup
  have same := committed.waiting_kept established waiting
  obtain ⟨stored, found, _, event⟩ := committed.action_source established lookup
  refine event.undelivered ?_ (phase.undelivered (same ▸ waiting) actionId stored found)
  rintro rfl
  cases committed with
  | setReleased _ released => simp [released.run.moved.2.1] at waiting

theorem approvedSteps_kept (phase : RunPhase db) (bound : MemberBinding db) (sound : Sound db)
    (committed : Committed db commit after)
    (established : commit ≠ .planPersisted) : after.run.state = .executing →
    ∀ stepId step, after.step? stepId = some step → step.state ≠ .awaitingApproval := by
  intro executing stepId now lookup awaiting
  obtain ⟨step, found, _, event⟩ := committed.step_source sound established lookup
  obtain rfl := event.awaiting_kept awaiting
  have write := phase.waits stepId now found awaiting
  rcases committed.executing_cases sound established executing with
    same | direct | ⟨middle, decided, released, _⟩
  · exact phase.approvedSteps (same ▸ executing) stepId now found awaiting
  · have read := sound.binding.readOnly direct stepId now found
    rw [write] at read
    cases read
  · obtain ⟨actionId, stored, present, own⟩ := sound.binding.writes stepId now found write
    obtain ⟨_, again, readied, ready⟩ := bound.released decided released present
    rw [own, lookup] at readied
    obtain rfl := Option.some.inj readied
    rw [awaiting] at ready
    cases ready

theorem approvedActions_kept (phase : RunPhase db) (bound : MemberBinding db) (sound : Sound db)
    (committed : Committed db commit after)
    (established : commit ≠ .planPersisted) : after.run.state = .executing →
    ∀ actionId stored, after.action? actionId = some stored →
      stored.action.state ∉ [.awaitingApproval, .approved] := by
  intro executing actionId later lookup waiting
  obtain ⟨stored, found, _, event⟩ := committed.action_source established lookup
  have waited := event.unapproved waiting
  rcases committed.executing_cases sound established executing with
    same | direct | ⟨middle, decided, released, _⟩
  · exact phase.approvedActions (same ▸ executing) actionId stored found waited
  · obtain ⟨step, present, write, _⟩ := sound.binding.actions actionId stored found
    rw [sound.binding.readOnly direct _ step present] at write
    cases write
  · obtain ⟨⟨again, reserved, state⟩, _⟩ := bound.released decided released found
    obtain rfl := Option.mem_unique lookup reserved
    simp [state] at waiting

theorem released_kept (phase : RunPhase db) (sound : Sound db)
    (committed : Committed db commit after)
    (established : commit ≠ .planPersisted) : after.run.state = .executing →
    after.run.approvalRequired = some true →
    ∃ head set, after.currentAuthorizationSet = some (head, set) ∧ set.status = .released := by
  intro executing required
  rw [(committed.samePlan established).approvalRequired] at required
  rcases committed.executing_cases sound established executing with
    same | direct | ⟨middle, decided, released, _⟩
  · rw [same] at executing
    rw [committed.sets_kept established]
    · exact phase.released executing required
    · rintro rfl
      cases committed with
      | setReleased decided released =>
          have waiting := released.waiting
          rw [decided.frame] at waiting
          simp [executing] at waiting
    · rintro rfl
      cases committed with
      | setClosed decided closed =>
          have waiting := closed.waiting
          rw [decided.frame] at waiting
          simp [executing] at waiting
  · simp [direct] at required
  · obtain ⟨head, _, set, _, current, status, _⟩ := released.set.current
    exact ⟨head, set, current, status⟩

theorem delivering_kept (phase : RunPhase db) (sound : Sound db)
    (committed : Committed db commit after)
    (established : commit ≠ .planPersisted) : ∀ stepId step, after.step? stepId = some step →
    step.effect = .write → step.state = .executing →
      ∃ actionId stored, after.action? actionId = some stored ∧
      stored.action.contract.stepId = stepId ∧
        stored.action.state ∈ [.dispatchReserved, .dispatching] := by
  intro stepId now lookup write executing
  obtain ⟨step, found, _, event⟩ := committed.step_source sound established lookup
  rcases event.executing_write write executing with rfl | ⟨actionId, stored, started, present, own⟩
  · obtain ⟨actionId, stored, present, own, delivering⟩ :=
      phase.delivering stepId now found write executing
    obtain ⟨later, kept, delivers⟩ :=
      committed.delivering_kept established lookup write executing present own delivering
    obtain ⟨again, source, contract, _⟩ := committed.action_source established kept
    obtain rfl := Option.mem_unique present source
    exact ⟨actionId, later, kept, by rw [contract]; exact own, delivers⟩
  · subst started
    cases committed with
    | callStarted started =>
        obtain ⟨_, again, updated, call, _, _, actions⟩ := started.call
        obtain rfl := Option.mem_unique present call.found
        refine ⟨actionId, updated, ?_, by rw [call.contract]; exact own, by simp [call.state]⟩
        rw [Database.action?, actions]
        exact Table.get?_set_self present

theorem completed_kept (phase : RunPhase db) (sound : Sound db)
    (committed : Committed db commit after) (established : commit ≠ .planPersisted)
    (finishes : commit = .runMoved .complete → ∀ stepId step, db.step? stepId = some step →
      step.state = .succeeded) : after.run.state = .completed →
    ∀ stepId step, after.step? stepId = some step → step.state = .succeeded := by
  intro completed stepId now lookup
  obtain ⟨step, found, _, event⟩ := committed.step_source sound established lookup
  rcases committed.completed_cases established completed with same | ended
  · have succeeded := phase.completed (same ▸ completed) stepId step found
    rw [event.terminal_kept (by simp [succeeded, StepState.terminal])]
    exact succeeded
  · have succeeded := finishes ended stepId step found
    rw [event.terminal_kept (by simp [succeeded, StepState.terminal])]
    exact succeeded

theorem preserved (phase : RunPhase db) (bound : MemberBinding db) (sound : Sound db)
    (committed : Committed db commit after) (established : commit ≠ .planPersisted)
    (finishes : commit = .runMoved .complete → ∀ stepId step, db.step? stepId = some step →
      step.state = .succeeded) : RunPhase after where
  waits := phase.waits_kept sound committed established
  unattempted := phase.unattempted_kept committed established
  undelivered := phase.undelivered_kept committed established
  approvedSteps := phase.approvedSteps_kept bound sound committed established
  approvedActions := phase.approvedActions_kept bound sound committed established
  released := phase.released_kept sound committed established
  delivering := phase.delivering_kept sound committed established
  completed := phase.completed_kept sound committed established finishes

end RunPhase

theorem RunLifecycleService.attemptAdvance_complete {expectedVersion : Nat} {occurredAt : Time}
    (accepted : attemptAdvance db expectedVersion .complete context occurredAt = .ok after)
    (found : db.step? stepId = some step) : step.state = .succeeded := by
  simp only [attemptAdvance, bind_ok, require_ok, pure_ok, Prod.exists] at accepted
  obtain ⟨_, _, _, _, _, _, _, _, _, counted, result, _, advanced, _⟩ := accepted
  rw [counted trivial] at advanced
  simp only [Database.advanceRun, transitionRun, completionCounts, bind_ok, pure_ok,
    Prod.exists] at advanced
  obtain ⟨_, ⟨_, _, _, _, _, _, _, next, _⟩, _⟩ := advanced
  simp only [nextRunState] at next
  split at next
  · split at next
    · rename_i finished
      have member : step.state ∈ db.steps.rows.map (·.state) :=
        List.mem_map_of_mem (Table.mem_rows_of_get? found)
      have all : (db.steps.rows.map (·.state)).count .succeeded =
          (db.steps.rows.map (·.state)).length := by
        have atMost := List.count_le_length (a := StepState.succeeded)
          (l := db.steps.rows.map (·.state))
        omega
      exact (List.count_eq_length.mp all _ member).symm
    · cases next
  · cases next

/-- Everything that holds of the rows of a run in every state. -/
structure Governed (db : Database) : Prop where
  sound : Sound db
  members : MemberBinding db
  phase : RunPhase db

namespace Governed

theorem of_received (received : Received db) : Governed db :=
  ⟨.of_received received, .of_received received, .of_received received⟩

theorem finishes (stepped : serviceMachine.step db transaction after)
    (commits : transaction.Commits db commit) (ended : commit = .runMoved .complete)
    (found : db.step? stepId = some step) : step.state = .succeeded := by
  subst ended
  cases transaction with
  | advanceRun expectedVersion command context occurredAt =>
      obtain rfl := Commit.runMoved.inj commits
      exact RunLifecycleService.attemptAdvance_complete stepped found
  | _ => simp [ServiceTransaction.Commits] at commits

theorem next (governed : Governed db)
    (stepped : serviceMachine.step db transaction after) : Governed after := by
  obtain ⟨commit, commits, committed⟩ := governed.sound.commits stepped
  by_cases established : commit ≠ .planPersisted
  · exact ⟨governed.sound.step committed,
      governed.members.of_samePlan (committed.samePlan established) (committed.head established),
      governed.phase.preserved governed.members governed.sound committed established
        fun ended _ _ found => finishes stepped commits ended found⟩
  · rw [not_not] at established
    subst established
    cases committed with
    | planPersisted persisted =>
        exact ⟨governed.sound.persisted persisted, .persisted persisted governed.sound,
          .persisted persisted governed.sound⟩

end Governed

end

end MarketingAgents
