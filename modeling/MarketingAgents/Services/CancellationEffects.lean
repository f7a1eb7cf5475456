import MarketingAgents.Services.ApprovalEffects

namespace MarketingAgents

open Library

/-! # How an unfinished run is closed by its approvals or by its operator -/

variable {db after : Database} {occurredAt : Time} {run : Run} {code message : String}

theorem listed_iff {entries : List (String × RunStep)}
    (current : ∀ entry ∈ entries, db.step? entry.1 = some entry.2)
    (found : db.step? stepId = some step) :
    stepId ∈ entries.map Prod.fst ↔ (stepId, step) ∈ entries := by
  constructor
  · intro listed
    obtain ⟨entry, member, rfl⟩ := List.mem_map.mp listed
    obtain rfl := Option.some.inj (found.symm.trans (current entry member))
    exact member
  · exact fun member => List.mem_map_of_mem member

/-- A cancellation fails some executing steps and cancels every queued one. -/
theorem failThenCancel_effect {failed cancelled : List StepTransitionResult} {middle : Database}
    (fails : advanceSteps run .fail context occurredAt code message failing db =
      .ok (failed, middle))
    (cancels : advanceSteps run .cancel context occurredAt code message
      (db.stepsWhere fun _ step => step.state ∈ [.pending, .ready]) middle = .ok (cancelled, after))
    (distinct : (failing.map Prod.fst).Nodup)
    (executing : ∀ entry ∈ failing, db.step? entry.1 = some entry.2 ∧ entry.2.state = .executing) :
    ∃ steps stepTransitions, after = { db with steps, stepTransitions } ∧
    steps.keys = db.steps.keys ∧
      ∀ stepId step, db.step? stepId = some step → ∃ closed, steps.get? stepId = some closed ∧
        if step.state ∈ [.pending, .ready] then step.Advanced .cancel closed
        else if stepId ∈ failing.map Prod.fst then step.Advanced .fail closed
          else closed = step := by
  obtain ⟨failedSteps, _, rfl, failedMoved⟩ := advanceSteps_effect fails distinct
    (fun entry member => (executing entry member).1)
  have running : ∀ {stepId step}, db.step? stepId = some step → stepId ∈ failing.map Prod.fst →
      step.state = .executing := fun found listed =>
    (executing _ ((listed_iff (fun entry member => (executing entry member).1) found).mp listed)).2
  have queuedOf : ∀ entry ∈ db.stepsWhere fun _ step => step.state ∈ [.pending, .ready],
      db.step? entry.1 = some entry.2 ∧ entry.2.state ∈ [.pending, .ready] := by
    intro entry member
    simpa using Database.mem_stepsWhere.mp member
  have notFailing : ∀ {stepId step}, db.step? stepId = some step → step.state ∈ [.pending, .ready] →
      stepId ∉ failing.map Prod.fst := by
    intro stepId step found queued listed
    simp [running found listed] at queued
  obtain ⟨steps, _, rfl, moved⟩ := advanceSteps_effect cancels Database.stepsWhere_distinct (by
    intro entry member
    obtain ⟨found, queued⟩ := queuedOf entry member
    exact (failedMoved.others entry.1 (notFailing found queued)).trans found)
  refine ⟨steps, _, rfl, moved.keys.trans failedMoved.keys, ?_⟩
  intro stepId step found
  by_cases queued : step.state ∈ [.pending, .ready]
  · obtain ⟨closed, lookup, advanced⟩ := moved.moved (stepId, step)
      (Database.mem_stepsWhere.mpr ⟨found, by simpa using queued⟩)
    exact ⟨closed, lookup, by rw [if_pos queued]; exact advanced⟩
  · have unqueued : stepId ∉ (db.stepsWhere fun _ step => step.state ∈ [.pending, .ready]).map
        Prod.fst := fun listed =>
      queued (queuedOf _ ((listed_iff (fun entry member => (queuedOf entry member).1) found).mp
        listed)).2
    have kept := moved.others stepId unqueued
    simp only [if_neg queued]
    by_cases listed : stepId ∈ failing.map Prod.fst
    · obtain ⟨closed, lookup, advanced⟩ := failedMoved.moved (stepId, step)
        ((listed_iff (fun entry member => (executing entry member).1) found).mp listed)
      exact ⟨closed, kept.trans lookup, by rw [if_pos listed]; exact advanced⟩
    · exact ⟨step, (kept.trans (failedMoved.others stepId listed)).trans found,
        by rw [if_neg listed]⟩

theorem retryBackoffSteps_effect {controlVersion : Nat}
    (classified : db.retryBackoffSteps planHash controlVersion code message steps = .ok backoff) :
    backoff.Sublist steps ∧ ∀ entry ∈ steps, ∃ disposition,
      db.executingReadDisposition planHash controlVersion entry.1 entry.2 = .ok disposition ∧
        (entry ∈ backoff ↔ disposition = .retryBackoff) := by
  obtain ⟨known, rfl⟩ := selectWhere_ok.mp classified
  refine ⟨List.filter_sublist, fun entry member => ?_⟩
  obtain ⟨_, accepted⟩ := known entry member
  cases classification : db.executingReadDisposition planHash controlVersion entry.1 entry.2 with
  | error reason => simp [classification, reject] at accepted
  | ok disposition =>
      exact ⟨disposition, rfl, by simp [List.mem_filter, member, classification, Except.toOption]⟩

/-- The provider call of an action is in flight. -/
def StoredAction.calling (stored : StoredAction) : Prop :=
  stored.action.state = .dispatching ∧ stored.action.call ≠ none

/-- A step after a cancellation that cancelled the selected actions before their calls. -/
def StepCancelled (db : Database) (control : RunExecutionControl)
    (selected : List (String × StoredAction)) (stepId : String) (step after : RunStep) : Prop :=
  match step.state with
  | .pending | .ready => step.Advanced .cancel after
  | .executing =>
      if step.effect = .write then
        if stepId ∈ selected.map (·.2.action.contract.stepId) then step.Advanced .fail after
        else after = step ∧ ∃ actionId stored, db.action? actionId = some stored ∧
          stored.action.contract.stepId = stepId ∧ stored.calling
      else ∃ disposition, db.executingReadDisposition control.policyHash
        control.version stepId step =
          .ok disposition ∧
        if disposition = .retryBackoff then step.Advanced .fail after else after = step
  | .awaitingApproval | .succeeded | .failed | .rejected | .cancelled | .skipped => after = step

/-- Every released action of the current set that waits for its call is in a list. -/
def SweepsReleased (db : Database) (selected : List (String × StoredAction)) : Prop :=
  ∃ head set, db.currentAuthorizationSet = some (head, set) ∧ set.status = .released ∧
    ∀ member ∈ set.members, ∀ stored, db.action? member.actionId = some stored →
      preCall stored.action → (member.actionId, stored) ∈ selected

/-- An operator cancelled a run: its control is fenced, and everything without a
call in flight is closed. -/
structure RunCancelled (db after : Database) : Prop where
  run : db.run.Advanced .cancel after.run
  control : ∃ before control, db.control = some before ∧ before.Continues control ∧
    control.cancelRequest ≠ none ∧ after.control = some control
  stepKeys : after.steps.keys = db.steps.keys
  closed : ∃ control selected, db.control = some control ∧
    (∀ entry ∈ selected, db.action? entry.1 = some entry.2) ∧
    ActionsCancelled selected db.actions after.actions ∧
    (db.run.approvalRequired = some false ∨
      db.run.state = .executing ∧ SweepsReleased db selected) ∧
    ∀ stepId step, db.step? stepId = some step → ∃ closed, after.step? stepId = some closed ∧
      StepCancelled db control selected stepId step closed
  frame : after = { db with
    run := after.run
    runTransitions := after.runTransitions
    steps := after.steps
    stepTransitions := after.stepTransitions
    control := after.control
    actions := after.actions
    audits := after.audits }

theorem RunCancellationService.requestOnce_effect
    (requested : requestOnce db actorDigest occurredAt = .ok after) : RunCancelled db after := by
  simp only [requestOnce, bind_ok, require_ok, requireSome_ok, pure_ok, Prod.exists] at requested
  obtain ⟨_, _, planHash, _, _, direct, control, stored, _, rfl, fenced, fences,
    backoff, classified,
    failed, middle, fails, cancelled, last, cancels, runResult, _, runAdvanced, rfl⟩ := requested
  obtain ⟨before, later, same, continues, cancelRequest, rfl⟩ :=
    Database.requestCancel_continues fences
  obtain ⟨sublist, classes⟩ := retryBackoffSteps_effect classified
  have executing : ∀ entry ∈ backoff, db.step? entry.1 = some entry.2 ∧
      entry.2.state = .executing := by
    intro entry member
    simpa using Database.mem_stepsWhere.mp (sublist.subset member)
  obtain ⟨steps, _, rfl, keys, closed⟩ := failThenCancel_effect fails cancels
    (Database.stepsWhere_distinct.sublist (sublist.map _)) executing
  obtain ⟨moved, rfl⟩ := Database.advanceRun_effect runAdvanced
  refine {
    run := moved
    control := ⟨before, later, same, continues, cancelRequest, rfl⟩
    stepKeys := keys
    closed := ⟨control, [], stored, by simp, ⟨rfl, by simp, fun _ _ => rfl⟩, .inl direct, ?_⟩
    frame := rfl }
  intro stepId step found
  obtain ⟨cleaned, lookup, change⟩ := closed stepId step found
  refine ⟨cleaned, lookup, ?_⟩
  have listed := listed_iff (fun entry member => (executing entry member).1) found
  cases state : step.state with
  | pending | ready => simpa [StepCancelled, state] using change
  | executing =>
      obtain ⟨disposition, accepted, selected⟩ := classes (stepId, step)
        (Database.mem_stepsWhere.mpr ⟨found, by simp [state]⟩)
      have effect : step.effect = .read := by
        simp only [Database.executingReadDisposition, bind_ok, require_ok] at accepted
        obtain ⟨_, binding, _⟩ := accepted
        exact binding.2.1
      simp only [listed, selected] at change
      simp only [StepCancelled, state, effect]
      exact ⟨disposition, accepted, by simpa [state] using change⟩
  | _ =>
      have unlisted : stepId ∉ backoff.map Prod.fst := fun member => by
        have running := (executing _ (listed.mp member)).2
        rw [state] at running
        cases running
      simpa [StepCancelled, state, unlisted] using change

namespace ApprovalBoundaryService

theorem actions_distinct {rows : List MemberRow} (loaded : ∀ row ∈ rows, MemberLoaded db row)
    (distinct : (rows.map (·.stored.action.contract.stepId)).Nodup) :
    (rows.map (·.member.actionId)).Nodup := by
  rw [List.nodup_iff_pairwise_ne, List.pairwise_map] at distinct ⊢
  refine distinct.imp_of_mem ?_
  intro first second firstListed secondListed differs same
  have left := (loaded first firstListed).action
  rw [same, (loaded second secondListed).action] at left
  exact differs (by rw [Option.some.inj left])

theorem cancelReleased_effect
    (cancelled : cancelReleased db snapshot actorDigest occurredAt = .ok after)
    (loaded : SnapshotOf db snapshot) (released : snapshot.set.status = .released) :
    RunCancelled db after := by
  simp only [cancelReleased, failedSteps, bind_ok, require_ok, requireSome_ok, pure_ok,
    Prod.exists] at cancelled
  obtain ⟨_, _, _, ⟨running, _⟩, control, stored, _, ⟨sealed, _⟩, fenced, fences,
    cancelledDb, cancels, _,
    distinctSteps, _, bound, failing, ⟨backoff, classified, split⟩, failed, middle,
      fails, queued, last,
    queues, runResult, _, runAdvanced, rfl⟩ := cancelled
  rw [← sealed] at classified
  obtain ⟨before, later, same, continues, cancelRequest, rfl⟩ :=
    Database.requestCancel_continues fences
  let selected := (snapshot.rows.filter fun row => preCall row.stored.action).map
    fun row => (row.member.actionId, row.stored)
  have selectedOf : ∀ entry ∈ selected, db.action? entry.1 = some entry.2 := by
    intro entry member
    obtain ⟨row, listed, rfl⟩ := List.mem_map.mp member
    exact (loaded.loaded row (List.mem_filter.mp listed).1).action
  have distinctActions : (selected.map Prod.fst).Nodup := by
    have all := actions_distinct loaded.loaded distinctSteps
    simpa [selected, Function.comp_def] using all.sublist (List.filter_sublist.map _)
  obtain ⟨actions, rfl, cancelledActions⟩ :=
    cancelUnstarted_effect cancels distinctActions selectedOf
  obtain ⟨sublist, classes⟩ := retryBackoffSteps_effect classified
  simp only [List.mem_filter, decide_eq_true_eq, and_imp] at classes
  have executingOf : ∀ entry ∈ db.stepsWhere fun _ step => step.state = .executing,
      db.step? entry.1 = some entry.2 ∧ entry.2.state = .executing := by
    intro entry member
    simpa using Database.mem_stepsWhere.mp member
  have backoffOf : ∀ entry ∈ backoff,
    (entry ∈ db.stepsWhere fun _ step => step.state = .executing) ∧
      entry.2.effect = .read := by
    intro entry member
    simpa using List.mem_filter.mp (sublist.subset member)
  have failingOf : ∀ entry ∈ failing, db.step? entry.1 = some entry.2 ∧
      entry.2.state = .executing := by
    intro entry member
    rw [← split] at member
    rcases List.mem_append.mp member with read | write
    · exact executingOf entry (backoffOf entry read).1
    · exact executingOf entry (List.mem_filter.mp write).1
  have distinctFailing : (failing.map Prod.fst).Nodup := by
    rw [← split, List.map_append, List.nodup_append]
    refine ⟨Database.stepsWhere_distinct.sublist ((sublist.trans List.filter_sublist).map _),
      Database.stepsWhere_distinct.sublist (List.filter_sublist.map _), ?_⟩
    intro first firstListed second secondListed equal
    obtain ⟨entry, member, rfl⟩ := List.mem_map.mp firstListed
    obtain ⟨other, again, rfl⟩ := List.mem_map.mp secondListed
    obtain ⟨listed, read⟩ := backoffOf entry member
    obtain ⟨present, write⟩ := List.mem_filter.mp again
    obtain rfl := List.inj_on_of_nodup_map Database.stepsWhere_distinct listed present equal
    simp [read] at write
  obtain ⟨steps, _, rfl, keys, closed⟩ :=
    failThenCancel_effect fails queues distinctFailing failingOf
  obtain ⟨moved, rfl⟩ := Database.advanceRun_effect runAdvanced
  refine {
    run := moved
    control := ⟨before, later, same, continues, cancelRequest, rfl⟩
    stepKeys := keys
    closed := ⟨control, selected, stored, selectedOf, cancelledActions,
      .inr ⟨running, snapshot.head, snapshot.set, loaded.current, released, ?_⟩, ?_⟩
    frame := rfl }
  · intro member listed action found uncalled
    rw [← loaded.members] at listed
    obtain ⟨row, known, rfl⟩ := List.mem_map.mp listed
    obtain rfl := Option.some.inj (found.symm.trans (loaded.loaded row known).action)
    exact List.mem_map.mpr ⟨row, List.mem_filter.mpr ⟨known, uncalled⟩, rfl⟩
  intro stepId step found
  obtain ⟨cleaned, lookup, change⟩ := closed stepId step found
  refine ⟨cleaned, lookup, ?_⟩
  have listed := listed_iff (fun entry member => (failingOf entry member).1) found
  cases state : step.state with
  | pending | ready => simpa [StepCancelled, state] using change
  | executing =>
      have member : (stepId, step) ∈ db.stepsWhere fun _ step => step.state = .executing :=
        Database.mem_stepsWhere.mpr ⟨found, by simp [state]⟩
      simp only [listed] at change
      simp only [← split, List.mem_append, List.mem_filter] at change
      cases effect : step.effect with
      | read =>
          obtain ⟨disposition, accepted, selected⟩ := classes (stepId, step) member effect
          simp only [selected] at change
          simp only [StepCancelled, state, effect]
          exact ⟨disposition, accepted, by simpa [state, effect] using change⟩
      | write =>
          have unread : (stepId, step) ∉ backoff := fun read => by
            have reads := (backoffOf _ read).2
            rw [effect] at reads
            cases reads
          have chosen : stepId ∈ selected.map (·.2.action.contract.stepId) ↔
              snapshot.rows.any fun row =>
                row.stored.action.contract.stepId = stepId && preCall row.stored.action := by
            simp [selected, and_comm, and_assoc]
          simp only [StepCancelled, state, effect, if_true, chosen]
          simp only [state, List.mem_cons, reduceCtorEq, List.not_mem_nil, or_self,
            if_false, unread,
            member, effect, decide_true, Bool.true_and, true_and, false_or] at change
          split at change
          · rename_i cancelledCall
            rw [if_pos cancelledCall]
            exact change
          · rename_i uncancelled
            rw [if_neg uncancelled]
            refine ⟨change, ?_⟩
            simp only [executingWritesBound, List.all_eq_true] at bound
            have covered := bound (stepId, step) member
            simp only [effect, reduceCtorEq, decide_false, Bool.false_or, List.any_eq_true,
              Bool.and_eq_true, decide_eq_true_eq, Bool.or_eq_true] at covered
            obtain ⟨row, rowListed, binds, uncalled | called⟩ := covered
            · exact absurd (List.any_eq_true.mpr ⟨row, rowListed, by simp [binds, uncalled]⟩)
                uncancelled
            · refine ⟨row.member.actionId, row.stored,
                (loaded.loaded row rowListed).action, binds, ?_⟩
              simpa [callStarted, StoredAction.calling] using called
  | _ =>
      rw [if_neg (by simp [state]), if_neg fun member => by
        have executes := (failingOf _ (listed.mp member)).2
        rw [state] at executes
        cases executes] at change
      simpa [StepCancelled, state] using change

theorem closeMember_others {rejecting : Bool}
    (closed : db.closeMember rejecting occurredAt row = some after) {actionId : String}
    (differs : actionId ≠ row.member.actionId) : after.action? actionId = db.action? actionId := by
  unfold Database.closeMember at closed
  split at closed
  · rw [Option.some.inj closed]
  · simp only [bind, Option.bind_eq_some_iff] at closed
    obtain ⟨closedDb, changed, rest⟩ := closed
    obtain ⟨_, updated, _, _, _, rfl⟩ := Database.updateAwaiting_effect changed (by simp)
      (fun _ => rfl) (fun _ => by simp)
    have kept : (db.storeAction row.member.actionId updated).action? actionId =
      db.action? actionId :=
      Database.storeAction_action?_ne differs
    split at rest
    · rw [← Option.some.inj rest]
      exact kept
    · simp only [Option.bind_eq_some_iff, Option.guard_eq_some', exists_const, Option.pure_def,
        Option.some.injEq] at rest
      obtain ⟨_, rfl⟩ := rest
      exact kept

theorem ended_kept (changed : ApprovalsChanged db after) (found : db.action? actionId = some stored)
    (ended : stored.action.state ∈ [.rejected, .cancelled]) :
    after.action? actionId = some stored := by
  rcases changed.actions.rows actionId with same | ⟨again, _, lookup, _, reconsidered⟩
  · exact same.trans found
  · obtain rfl := Option.mem_unique found lookup
    have unreleased := reconsidered.unreleased
    revert ended unreleased
    cases stored.action.state <;> simp

theorem closeMembers_effect {rejecting : Bool}
    (closed : closeMembers rejecting occurredAt rows db = .ok after)
    (current : ∀ row ∈ rows, ∃ stored, db.action? row.member.actionId = some stored ∧
      (stored = row.stored ∨ stored.action.state ∈ [.rejected, .cancelled])) :
    ApprovalsChanged db after ∧ ∀ row ∈ rows, ∃ updated,
      after.action? row.member.actionId = some updated ∧
        updated.action.state ∈ [.rejected, .cancelled] := by
  induction rows generalizing db with
  | nil =>
      cases closed
      exact ⟨.refl _, by simp⟩
  | cons row rest ih =>
      simp only [closeMembers, bind_ok, requireSome_ok] at closed
      obtain ⟨first, one, remaining⟩ := closed
      obtain ⟨stored, found, known⟩ := current row (by simp)
      obtain ⟨changed, updated, lookup, ended⟩ := Database.closeMember_effect one found known
      obtain ⟨later, others⟩ := ih remaining (by
        intro other member
        by_cases same : other.member.actionId = row.member.actionId
        · exact ⟨updated, by rw [same]; exact lookup, .inr ended⟩
        · rw [closeMember_others one same]
          exact current other (by simp [member]))
      refine ⟨changed.trans later, ?_⟩
      intro other member
      rcases List.mem_cons.mp member with rfl | listed
      · exact ⟨updated, ended_kept later lookup ended, ended⟩
      · exact others other listed

/-- The open set of a run was closed with its run, its steps and its actions. -/
structure SetClosed (db after : Database) : Prop where
  waiting : db.run.state = .awaitingApproval
  run : db.run.Advanced .rejectApproval after.run ∨ db.run.Advanced .cancel after.run
  control : after.control = db.control ∨ ∃ before control, db.control = some before ∧
    before.Continues control ∧ after.control = some control
  stepKeys : after.steps.keys = db.steps.keys
  steps : ∀ stepId step, db.step? stepId = some step → ∃ closed, after.step? stepId = some closed ∧
    (step.Advanced .reject closed ∨ step.Advanced .cancel closed)
  actions : ActionsReconsidered db.actions after.actions
  closed : ∀ head set, db.currentAuthorizationSet = some (head, set) → ∀ member ∈ set.members,
    ∃ updated, after.action? member.actionId = some updated ∧
      updated.action.state ∈ [.rejected, .cancelled]
  set : SetStored db .rejected after ∨ SetStored db .cancelled after
  frame : after = { db with
    run := after.run
    runTransitions := after.runTransitions
    steps := after.steps
    stepTransitions := after.stepTransitions
    control := after.control
    actions := after.actions
    authorizationSets := after.authorizationSets
    approvalRequests := after.approvalRequests
    audits := after.audits }

theorem closeCurrentSet_effect {rejecting : Bool}
    (closed : closeCurrentSet db snapshot command context rejecting occurredAt = .ok after)
    (loaded : SnapshotOf db snapshot) (waiting : db.run.state = .awaitingApproval)
    (closes : command = .rejectApproval ∨ command = .cancel) :
    SetClosed db after ∧ after.control = db.control := by
  simp only [closeCurrentSet, bind_ok, pure_ok, Prod.exists] at closed
  obtain ⟨runResult, _, runAdvanced, rejected, _, rejects, cancelled, _, cancels, closedDb,
    closesMembers, rfl⟩ := closed
  obtain ⟨run, rfl⟩ := Database.advanceRun_effect runAdvanced
  obtain ⟨rejectedSteps, _, rfl, rejectedMoved⟩ := advanceSteps_effect rejects
    Database.stepsWhere_distinct (fun entry member => (Database.mem_stepsWhere.mp member).1)
  have unrejected : ∀ {stepId step}, db.step? stepId = some step →
      (rejecting && rejectedStep snapshot stepId) = false →
        rejectedSteps.get? stepId = some step := by
    intro stepId step found apart
    refine (rejectedMoved.others stepId fun listed => ?_).trans found
    obtain ⟨entry, member, rfl⟩ := List.mem_map.mp listed
    rw [(Database.mem_stepsWhere.mp member).2] at apart
    cases apart
  obtain ⟨steps, _, rfl, moved⟩ := advanceSteps_effect cancels Database.stepsWhere_distinct (by
    intro entry member
    obtain ⟨found, apart⟩ := Database.mem_stepsWhere.mp member
    rw [Bool.not_eq_true'] at apart
    exact unrejected found apart)
  obtain ⟨changed, ended⟩ := closeMembers_effect closesMembers
    (fun row listed => ⟨row.stored, (loaded.loaded row listed).action, .inl rfl⟩)
  rw [changed.frame]
  have stored : ∀ status, SetStored db status (storeSet { closedDb with
      authorizationHead := db.authorizationHead
      authorizationSets := db.authorizationSets } snapshot status snapshot.set.members none
      (if rejecting then "approval_rejected" else "operator_cancelled") occurredAt) := fun status =>
    storeSet_effect loaded.current rfl rfl rfl
  refine ⟨?_, rfl⟩
  exact {
    waiting
    run := by rcases closes with rfl | rfl <;> simp [run, storeSet, Database.appendAudits]
    control := .inl rfl
    stepKeys := moved.keys.trans rejectedMoved.keys
    steps := by
      intro stepId step found
      cases apart : rejecting && rejectedStep snapshot stepId with
      | true =>
          obtain ⟨closed, lookup, advanced⟩ := rejectedMoved.moved (stepId, step)
            (Database.mem_stepsWhere.mpr ⟨found, apart⟩)
          refine ⟨closed, (moved.others stepId fun listed => ?_).trans lookup, .inl advanced⟩
          obtain ⟨entry, member, rfl⟩ := List.mem_map.mp listed
          have kept := (Database.mem_stepsWhere.mp member).2
          simp [apart] at kept
      | false =>
          obtain ⟨closed, lookup, advanced⟩ := moved.moved (stepId, step)
            (Database.mem_stepsWhere.mpr ⟨found, by simp [apart]⟩)
          exact ⟨closed, lookup, .inr advanced⟩
    actions := changed.actions
    closed := by
      intro head set current member listed
      obtain ⟨_, rfl⟩ := Prod.mk.inj (Option.mem_unique current loaded.current)
      rw [← loaded.members] at listed
      obtain ⟨row, known, rfl⟩ := List.mem_map.mp listed
      exact ended row known
    set := by
      cases rejecting with
      | true => exact .inl ⟨(stored .rejected).head, (stored .rejected).set⟩
      | false => exact .inr ⟨(stored .cancelled).head, (stored .cancelled).set⟩
    frame := rfl }

/-- What an evaluation of the current set leads to. -/
inductive BoundaryCrossed (db : Database) : Database → Prop where
  | changed {after : Database} (approvals : ApprovalsChanged db after) : BoundaryCrossed db after
  | released {after : Database} (release : SetReleased db after) : BoundaryCrossed db after
  | closed {after : Database} (closure : SetClosed db after) : BoundaryCrossed db after

theorem expireMembers_effect
    (expired : expireMembers occurredAt rows db = .ok after) : ApprovalsChanged db after := by
  induction rows generalizing db with
  | nil =>
      cases expired
      exact .refl _
  | cons row rest ih =>
      simp only [expireMembers, bind_ok, requireSome_ok] at expired
      obtain ⟨_, _, first, one, remaining⟩ := expired
      exact (Database.markExpired_effect one).trans (ih remaining)

theorem evaluate_effect {newIds : String → ReleaseIds}
    {disposition : ApprovalBoundaryDisposition} (distinct : MembersDistinct db)
    (evaluated : evaluate db releaseHash newIds occurredAt = .ok (disposition, after)) :
    BoundaryCrossed db after := by
  simp only [evaluate, bind_ok] at evaluated
  obtain ⟨snapshot, loads, evaluated⟩ := evaluated
  have loaded := loadCurrent_effect loads
  split at evaluated
  · obtain ⟨_, rfl⟩ := Prod.mk.inj (pure_ok.mp evaluated)
    exact .changed (.refl db)
  · obtain ⟨_, rfl⟩ := Prod.mk.inj (pure_ok.mp evaluated)
    exact .changed (.refl db)
  · obtain ⟨_, rfl⟩ := Prod.mk.inj (pure_ok.mp evaluated)
    exact .changed (.refl db)
  · cases evaluated
  · simp only [bind_ok, require_ok] at evaluated
    obtain ⟨_, waiting, evaluated⟩ := evaluated
    rw [loaded.run] at waiting
    simp only [evaluateOpen] at evaluated
    split at evaluated
    · simp only [bind_ok, pure_ok, Prod.mk.injEq] at evaluated
      obtain ⟨_, rejected, _, rfl⟩ := evaluated
      exact .closed (closeCurrentSet_effect rejected loaded waiting (.inl rfl)).1
    · split at evaluated
      · simp only [bind_ok, pure_ok, Prod.mk.injEq] at evaluated
        obtain ⟨_, expired, _, rfl⟩ := evaluated
        exact .changed (expireMembers_effect expired)
      · split at evaluated
        · obtain ⟨_, rfl⟩ := Prod.mk.inj (pure_ok.mp evaluated)
          exact .changed (.refl db)
        · split at evaluated
          · obtain ⟨_, rfl⟩ := Prod.mk.inj (pure_ok.mp evaluated)
            exact .changed (.refl db)
          · simp only [bind_ok, pure_ok, Prod.mk.injEq] at evaluated
            obtain ⟨_, released, _, rfl⟩ := evaluated
            exact .released (release_effect released loaded distinct)

theorem cancelOnce_effect (cancelled : cancelOnce db actorDigest occurredAt = .ok after) :
    SetClosed db after ∨ RunCancelled db after := by
  simp only [cancelOnce, bind_ok] at cancelled
  obtain ⟨snapshot, loads, cancelled⟩ := cancelled
  have loaded := loadCurrent_effect loads
  split at cancelled
  · rename_i released
    exact .inr (cancelReleased_effect cancelled loaded released)
  · simp only [bind_ok, require_ok, requireSome_ok] at cancelled
    obtain ⟨_, waiting, control, stored, _, _, fenced, fences, cancelled⟩ := cancelled
    rw [loaded.run] at waiting
    obtain ⟨before, later, same, continues, _, rfl⟩ := Database.requestCancel_continues fences
    obtain ⟨closure, kept⟩ := closeCurrentSet_effect cancelled {
      current := loaded.current
      members := loaded.members
      loaded := fun row listed =>
        have known := loaded.loaded row listed
        ⟨known.action, known.step, known.stepId⟩
      run := loaded.run
      approvalRequired := loaded.approvalRequired } waiting (.inr rfl)
    exact .inl {
      waiting
      run := closure.run
      control := .inr ⟨before, later, same, continues, kept⟩
      stepKeys := closure.stepKeys
      steps := closure.steps
      actions := closure.actions
      closed := closure.closed
      set := closure.set.imp (fun stored => ⟨stored.head, stored.set⟩) fun stored =>
        ⟨stored.head, stored.set⟩
      frame := closure.frame }
  · cases cancelled

end ApprovalBoundaryService

theorem ApprovalDecisionService.decide_effect {approve : Bool} {newIds : String → ReleaseIds}
    (decided : decide db requestId decisionId approve releaseHash newIds occurredAt = .ok after) :
    ∃ middle, ApprovalsChanged db middle ∧ (after = middle ∨ ∃ disposition,
      ApprovalBoundaryService.evaluate middle releaseHash newIds occurredAt =
        .ok (disposition, after)) := by
  simp only [decide, bind_ok, require_ok, requireSome_ok, Prod.exists] at decided
  obtain ⟨_, _, _, _, _, _, _, _, _, _, _, _, _, _, _, middle, recorded, rest⟩ := decided
  refine ⟨middle, Database.recordDecision_effect recorded, ?_⟩
  split at rest
  · simp only [bind_ok, pure_ok, Prod.exists] at rest
    obtain ⟨disposition, _, evaluated, rfl⟩ := rest
    exact .inr ⟨disposition, evaluated⟩
  · simp only [bind_ok, pure_ok] at rest
    obtain ⟨_, _, rfl⟩ := rest
    exact .inl rfl

theorem ApprovalRecordService.renewExpired_effect {expectedVersion : Nat} {expiresAt : Time}
    (renewed : renewExpired db requestId replacementId expectedVersion occurredAt expiresAt =
      .ok after) :
    ApprovalsChanged db after := by
  simp only [renewExpired, bind_ok, requireSome_ok] at renewed
  obtain ⟨_, _, _, _, accepted⟩ := renewed
  exact Database.renewExpired_effect accepted

end MarketingAgents
