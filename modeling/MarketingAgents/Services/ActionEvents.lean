import MarketingAgents.Services.StepEvents

namespace MarketingAgents

open Library

/-! # What one commit does to one action -/

/-- The commit may close the actions that wait for their calls. -/
def Commit.sweeps : Commit → Bool
  | .runCancelled | .attemptClosed _ | .actionConcluded _ _ | .cleanedUp _ => true
  | _ => false

/-- What one commit may do to one external action. -/
inductive ActionEvent (db : Database) (commit : Commit) (actionId : String)
    (stored : StoredAction) : StoredAction → Prop where
  | kept : ActionEvent db commit actionId stored stored
  | reconsidered {now : StoredAction} (changed : stored.Reconsidered now) :
      ActionEvent db commit actionId stored now
  | released {decided now : StoredAction} (crossed : commit = .setReleased)
      (before : decided = stored ∨ stored.Reconsidered decided) (reserved : decided.Released now) :
      ActionEvent db commit actionId stored now
  | called {authority : ReleaseAuthority} {now : StoredAction}
      (started : commit = .callStarted actionId)
      (call : CallStarted db actionId authority stored now)
      (own : authority.stepId = stored.action.contract.stepId) :
        ActionEvent db commit actionId stored now
  | retried {now : StoredAction} (recovered : commit = .actionReleased actionId)
      (released : ExternalActionDispatcher.ActionReleased db actionId stored now) :
      ActionEvent db commit actionId stored now
  | concluded {outcome : WriteOutcome} {now : StoredAction}
      (ended : commit = .actionConcluded actionId outcome) (change : stored.Concluded outcome now) :
      ActionEvent db commit actionId stored now
  | cancelled {now : StoredAction} (swept : commit.sweeps) (change : stored.CancelledPreCall now) :
      ActionEvent db commit actionId stored now

variable {db after : Database} {commit : Commit} {actionId : String} {stored : StoredAction}

theorem ActionsReconsidered.cases
    (changed : ActionsReconsidered before later) (found : before.get? actionId = some stored) :
    ∃ now, later.get? actionId = some now ∧ (now = stored ∨ stored.Reconsidered now) := by
  rcases changed.rows actionId with same | ⟨again, now, present, lookup, change⟩
  · exact ⟨stored, same.trans found, .inl rfl⟩
  · obtain rfl := Option.mem_unique found present
    exact ⟨now, lookup, .inr change⟩

theorem ActionsCancelled.cases (cancelled : ActionsCancelled selected before later)
    (current : ∀ entry ∈ selected, before.get? entry.1 = some entry.2)
    (found : before.get? actionId = some stored) :
    ∃ now, later.get? actionId = some now ∧ (now = stored ∧ actionId ∉ selected.map Prod.fst ∨
      stored.CancelledPreCall now) := by
  by_cases listed : actionId ∈ selected.map Prod.fst
  · obtain ⟨entry, member, rfl⟩ := List.mem_map.mp listed
    obtain rfl := Option.some.inj (found.symm.trans (current entry member))
    obtain ⟨now, lookup, change⟩ := cancelled.cancelled entry member
    exact ⟨now, lookup, .inr change⟩
  · exact ⟨stored, (cancelled.others actionId listed).trans found, .inl ⟨rfl, listed⟩⟩

theorem ApprovalBoundaryService.ActionsReleased.cases
    (released : ApprovalBoundaryService.ActionsReleased selected before later)
    (current : ∀ entry ∈ selected, before.get? entry.1 = some entry.2)
    (found : before.get? actionId = some stored) :
    ∃ now, later.get? actionId = some now ∧ (now = stored ∧ actionId ∉ selected.map Prod.fst ∨
      stored.Released now) := by
  by_cases listed : actionId ∈ selected.map Prod.fst
  · obtain ⟨entry, member, rfl⟩ := List.mem_map.mp listed
    obtain rfl := Option.some.inj (found.symm.trans (current entry member))
    obtain ⟨now, lookup, change⟩ := released.released entry member
    exact ⟨now, lookup, .inr change⟩
  · exact ⟨stored, (released.others actionId listed).trans found, .inl ⟨rfl, listed⟩⟩

namespace StoredAction

theorem started_updateAttempt {number : Nat} {change : DispatchAttempt → DispatchAttempt}
    (kept : ∀ attempt, (change attempt).started = attempt.started) :
    (stored.updateAttempt number change).any (·.started) = stored.attempts.any (·.started) := by
  rw [updateAttempt, List.any_map]
  congr 1
  funext attempt
  by_cases selected : attempt.attemptNumber = number <;> simp [selected, kept]

theorem started_cancelAttempt {number : Nat} {occurredAt : Time} :
    (stored.cancelAttempt number occurredAt reasonCode).any (·.started) =
      stored.attempts.any (·.started) := by
  rw [cancelAttempt, List.any_map]
  congr 1
  funext attempt
  by_cases selected : unstartedAttempt number attempt <;> simp [selected, DispatchAttempt.started]

end StoredAction

theorem TerminalExecutionCleanupService.CleanedUp.action_event
    (cleanup : CleanedUp middle planHash failedStepId focalActionId failedStep after)
    (sweeps : commit.sweeps) (found : middle.action? actionId = some stored) :
    ∃ now, after.action? actionId = some now ∧ ActionEvent db commit actionId stored now := by
  obtain ⟨_, actions, _, _, planned, cancelled, _⟩ := cleanup.closed
  obtain ⟨now, lookup, ⟨rfl, _⟩ | change⟩ := cancelled.cases (fun entry member =>
    Table.get?_eq_some_iff.mpr
      ((List.filter_sublist.trans (planActions_sublist planned)).subset member))
    found
  · exact ⟨now, lookup, .kept⟩
  · exact ⟨now, lookup, .cancelled sweeps change⟩

theorem WriteConcluded.action_event (concluded : WriteConcluded db focal outcome after)
    (found : db.action? actionId = some stored) :
    ∃ now, after.action? actionId = some now ∧
      ActionEvent db (.actionConcluded focal outcome) actionId stored now := by
  cases concluded with
  | step present concluded =>
      rw [Database.action?, Table.get?_set present]
      split
      · rename_i same
        subst same
        obtain rfl := Option.mem_unique found present
        exact ⟨_, rfl, .concluded rfl concluded⟩
      · exact ⟨stored, found, .kept⟩
  | run present concluded _ cleanup =>
      have kept := (ExternalActionDispatcher.focal_kept cleanup).trans present
      rw [Database.action?, Table.get?_set kept]
      split
      · rename_i same
        subst same
        obtain rfl := Option.mem_unique found present
        exact ⟨_, rfl, .concluded rfl concluded⟩
      · exact cleanup.action_event rfl found

/-- Every commit of an established plan is one event for each action. -/
theorem Committed.actionEvent (committed : Committed db commit after)
    (established : commit ≠ .planPersisted) (found : db.action? actionId = some stored) :
    ∃ now, after.action? actionId = some now ∧ ActionEvent db commit actionId stored now := by
  have kept : after.actions = db.actions → ∃ now, after.action? actionId = some now ∧
      ActionEvent db commit actionId stored now := fun same =>
    ⟨stored, by rw [Database.action?, same]; exact found, .kept⟩
  cases committed with
  | recorded => exact kept rfl
  | planPersisted => exact absurd rfl established
  | runMoved moved => exact kept (by rw [moved.frame])
  | planActivated activated => exact kept (by rw [activated.frame])
  | stepMoved moved => exact kept (by rw [moved.frame])
  | stepExecuted executed => exact kept (by rw [executed.frame])
  | approvalsChanged changed =>
      obtain ⟨now, lookup, rfl | change⟩ := changed.actions.cases found
      · exact ⟨now, lookup, .kept⟩
      · exact ⟨now, lookup, .reconsidered change⟩
  | setReleased decided released =>
      obtain ⟨middle, present, before⟩ := decided.actions.cases found
      obtain ⟨_, _, _, actions, _, _, _, _, current, _, changed⟩ := released.members
      obtain ⟨now, lookup, ⟨rfl, _⟩ | change⟩ := changed.cases current present
      · rcases before with rfl | change
        · exact ⟨now, lookup, .kept⟩
        · exact ⟨now, lookup, .reconsidered change⟩
      · exact ⟨now, lookup, .released rfl before change⟩
  | setClosed decided closed =>
      obtain ⟨now, lookup, rfl | change⟩ := (decided.actions.trans closed.actions).cases found
      · exact ⟨now, lookup, .kept⟩
      · exact ⟨now, lookup, .reconsidered change⟩
  | runCancelled cancelled =>
      obtain ⟨_, selected, _, current, swept, _⟩ := cancelled.closed
      obtain ⟨now, lookup, ⟨rfl, _⟩ | change⟩ := swept.cases current found
      · exact ⟨now, lookup, .kept⟩
      · exact ⟨now, lookup, .cancelled rfl change⟩
  | attemptReserved reserved => exact kept (by rw [reserved.frame])
  | attemptClosed closed =>
      obtain ⟨_, completed, closed, conclusion⟩ := closed
      have same : completed.action? actionId = some stored := by
        rw [closed.frame]
        exact found
      cases conclusion with
      | retry | step => exact ⟨stored, same, .kept⟩
      | run _ cleanup => exact cleanup.action_event rfl same
  | callStarted started =>
      obtain ⟨authority, again, updated, call, own, _, actions⟩ := started.call
      rw [Database.action?, actions, Table.get?_set call.found]
      split
      · rename_i same
        subst same
        obtain rfl := Option.mem_unique found call.found
        exact ⟨_, rfl, .called rfl call own⟩
      · exact ⟨stored, found, .kept⟩
  | actionReleased released =>
      rw [Database.action?, Database.storeAction, Table.get?_set released.found]
      split
      · rename_i same
        subst same
        obtain rfl := Option.mem_unique found released.found
        exact ⟨_, rfl, .retried rfl released⟩
      · exact ⟨stored, found, .kept⟩
  | actionConcluded concluded => exact concluded.action_event found
  | cleanedUp cleanup => exact cleanup.action_event rfl found

/-- Only the start of its call makes an action a called one. -/
theorem ActionEvent.called_source (event : ActionEvent db commit actionId stored now)
    (called : now.called) : stored.called ∨ ∃ authority, commit = .callStarted actionId ∧
      CallStarted db actionId authority stored now ∧
      authority.stepId = stored.action.contract.stepId := by
  cases event with
  | kept => exact .inl called
  | reconsidered changed =>
      rw [StoredAction.called, changed.attempts] at called
      exact .inl called
  | released _ before reserved =>
      rw [StoredAction.called, reserved.attempts] at called
      rcases before with rfl | changed
      · exact .inl called
      · rw [changed.attempts] at called
        exact .inl called
  | called started call own => exact .inr ⟨_, started, call, own⟩
  | retried _ released =>
      obtain ⟨_, _, _, _, _, _, attempts⟩ := released.attempts
      rw [StoredAction.called, attempts, StoredAction.concludeAttempt,
        StoredAction.started_updateAttempt]
        at called
      · exact .inl called
      · exact fun _ => rfl
  | concluded _ change =>
      obtain ⟨_, _, _, _, attempts⟩ := change.attempts
      rw [StoredAction.called, attempts, StoredAction.concludeAttempt,
        StoredAction.started_updateAttempt]
        at called
      · exact .inl called
      · exact fun _ => rfl
  | cancelled _ change =>
      rcases change.attempts with same | ⟨_, _, _, attempts⟩
      · rw [StoredAction.called, same] at called
        exact .inl called
      · rw [StoredAction.called, attempts, StoredAction.started_cancelAttempt] at called
        exact .inl called

end MarketingAgents
