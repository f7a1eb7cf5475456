import MarketingAgents.Services.AttemptLineage
import MarketingAgents.Services.ServiceRuns

namespace MarketingAgents

open Library

/-! # What holds in every state of a run -/

/-- The rows of a run bind each other, and its attempts fit their steps. -/
structure Sound (db : Database) : Prop where
  binding : PlanBinding db
  undecided : db.run.state ∈ [.received, .validated] → db.run.approvalRequired = none
  decided : db.run.state ∈ [.planned, .awaitingApproval, .executing, .completed] →
    db.run.approvalRequired ≠ none
  positive : ∀ control, db.control = some control → 0 < control.version
  lineage : ∀ control stepId step operation, db.control = some control →
    db.step? stepId = some step → db.operations.get? stepId = some operation →
    AttemptLineage step operation control.version
  identified : ∀ stepId operation otherId other, db.operations.get? stepId = some operation →
    db.operations.get? otherId = some other → ∀ attempt ∈ operation.attempts,
    ∀ again ∈ other.attempts, attempt.id = again.id → stepId = otherId

namespace Sound

variable {db after : Database} {commit : Commit}

theorem of_received (received : Received db) : Sound db where
  binding := {
    unplanned := fun _ => ⟨by simp [Database.step?, received.steps], by simp [received.operations],
      by simp [Database.action?, received.actions], received.control, received.head⟩
    controlled := fun decided => absurd received.undecided decided
    readOnly := by simp [received.undecided]
    approvable := by simp [received.undecided]
    sealed := by simp [Database.step?, received.steps]
    dependencies := by simp [Database.step?, received.steps]
    operations := by simp [received.operations]
    callable := by simp [Database.step?, received.steps]
    actions := by simp [Database.action?, received.actions]
    ownStep := by simp [Database.action?, received.actions]
    writes := by simp [Database.step?, received.steps]
    distinct := by simp [Database.currentMembers, Database.currentAuthorizationSet, received.head]
    covered := by simp [Database.currentMembers, Database.currentAuthorizationSet, received.head] }
  undecided := fun _ => received.undecided
  decided := by simp [received.state]
  positive := by simp [received.control]
  lineage := by simp [received.control]
  identified := by simp [received.operations]

theorem operation_of_step (sound : Sound db) {step : RunStep}
    (found : db.step? stepId = some step) (callable : step.callable) :
    ∃ operation control, db.operations.get? stepId = some operation ∧ db.control = some control ∧
      control.policyHash = step.planHash ∧ operationBindsStep operation.policy step ∧
      AttemptLineage step operation control.version := by
  obtain ⟨operation, present⟩ := sound.binding.callable stepId step found callable
  obtain ⟨same, again, _, binds⟩ := sound.binding.operations stepId operation present
  obtain rfl := Option.mem_unique found again
  have sealed := sound.binding.sealed stepId step found
  obtain ⟨control, stored, hash⟩ := Option.map_eq_some_iff.mp sealed
  exact ⟨operation, control, present, stored, hash, binds,
    sound.lineage control stepId step operation stored found present⟩

theorem known (sound : Sound db) (stepId : String) :
    ControlledReadExecutor.AttemptsKnown db stepId := by
  have history : ∀ operation, db.operations.get? stepId = some operation →
      ∃ controlVersion, operation.AttemptHistory controlVersion := by
    intro operation found
    obtain ⟨step, present, callable, _⟩ := sound.binding.operations stepId operation found
    obtain ⟨again, control, same, _, _, _, lineage⟩ := sound.operation_of_step present callable
    obtain rfl := Option.mem_unique found same
    exact ⟨control.version, lineage.history⟩
  refine { located := ?_, openIsLast := ?_ }
  · intro operation attempt found member
    cases located : db.attempt? attempt.id with
    | none => exact absurd rfl (Database.attempt?_eq_none located found attempt member)
    | some entry =>
        obtain ⟨otherId, again⟩ := entry
        obtain ⟨other, lookup, listed, same⟩ := Database.attempt?_eq_some located
        obtain rfl := sound.identified otherId other stepId operation lookup found
          again listed attempt member same
        obtain rfl := Option.mem_unique found lookup
        obtain ⟨_, history⟩ := history operation found
        rw [List.inj_on_of_nodup_map history.identified listed member same]
  · intro operation attempt found member isOpen
    obtain ⟨_, history⟩ := history operation found
    obtain ⟨earlier, split⟩ := history.open_is_last member isOpen
    simp [split]

theorem distinct (sound : Sound db) (changed : ApprovalsChanged db middle) :
    ApprovalBoundaryService.MembersDistinct middle := by
  intro head set current
  have members : db.currentMembers = some (set.members.map fun member =>
      { member with release := none }) := by
    rw [← changed.samePlan.members, Database.currentMembers, current, Option.map_some]
  have distinct := sound.binding.distinct _ members
  simpa [Function.comp_def] using distinct

theorem commits (sound : Sound db) (stepped : serviceMachine.step db transaction after) :
    ∃ commit, transaction.Commits db commit ∧ Committed db commit after :=
  ServiceTransaction.commits sound.known (fun _ => sound.distinct) stepped

theorem reserved_lineage {step now : RunStep} (sound : Sound db)
    (reserved : ReadReserved db stepId attempt after) (found : db.step? stepId = some step)
    (lookup : after.step? stepId = some now) (stored : after.control = some later)
    (present : after.operations.get? stepId = some operation) :
    AttemptLineage now operation later.version := by
  obtain ⟨command, control, window, before, charged, controlled, _, _, absent, earlier,
    named, reservation, charge, control', operations⟩ := reserved.charged
  rw [operations, Table.get?_set_self earlier, Option.some.injEq] at present
  rw [control', Option.some.injEq] at stored
  subst present stored
  have lineage := sound.lineage control stepId step before controlled found earlier
  have history := lineage.history.reserve (sound.positive control controlled) named reservation
    (Database.attempt?_eq_none absent earlier)
  have isOpen := reservation.completion
  have change := reserved.step
  rw [Database.step?] at lookup
  generalize after.steps = steps at change lookup
  cases change with
  | first stepFound number source advanced =>
      obtain rfl := Option.mem_unique found stepFound
      rw [Table.get?_set_self stepFound, Option.some.injEq] at lookup
      subst lookup
      exact lineage.reserve_first history isOpen number source advanced
  | retry stepFound number source executing =>
      obtain rfl := Option.mem_unique found stepFound
      obtain rfl := Option.mem_unique stepFound lookup
      exact lineage.reserve_retry history isOpen number source executing

theorem closed_lineage {step now : RunStep} (sound : Sound db) (closed : ReadClosed db stepId after)
    (found : db.step? stepId = some step) (lookup : after.step? stepId = some now)
    (stored : after.control = some later)
    (present : after.operations.get? stepId = some operation) :
    AttemptLineage now operation later.version := by
  obtain ⟨completion, completed, closed, conclusion⟩ := closed
  obtain ⟨command, attempt, before, control, window, earlier, member, isOpen, controlled, _,
    _, completionIs, control', operations⟩ := closed.accounts
  have steps : completed.steps = db.steps := by rw [closed.frame]
  have lineage := sound.lineage control stepId step before controlled found earlier
  have retryable : completion.retryNotBefore ≠ none →
      completion.outcome = .transientFailure ∧ completion.terminalReasonCode = none := by
    intro allowed
    obtain ⟨retryNotBefore, retry⟩ := Option.ne_none_iff_exists'.mp allowed
    rw [completionIs] at retry ⊢
    obtain ⟨failed, unended, _⟩ := Database.completionOf_retry retry
    exact ⟨failed, unended⟩
  have history := (lineage.history.finish member isOpen retryable).mono
    (Nat.le_succ control.version)
  have rows : after.operations = completed.operations ∧ after.control = completed.control := by
    cases conclusion with
    | retry | step => exact ⟨rfl, rfl⟩
    | run _ cleanup => rw [cleanup.frame]; exact ⟨rfl, rfl⟩
  rw [rows.1, operations, Table.get?_set_self earlier, Option.some.injEq] at present
  rw [rows.2, control', Option.some.injEq] at stored
  subst present stored
  cases conclusion with
  | retry allowed =>
      rw [Database.step?, steps] at lookup
      obtain rfl := Option.mem_unique found lookup
      exact (lineage.retried member isOpen retryable allowed).mono (Nat.le_succ control.version)
  | step _ ends stepFound advanced =>
      rw [Database.step?, Table.get?_set_self stepFound, Option.some.injEq] at lookup
      subst lookup
      refine .closed history ?_ advanced
      rcases ends with rfl | rfl <;> simp
  | run _ cleanup =>
      obtain ⟨_, _, advanced⟩ := cleanup.failed
      obtain rfl := Option.mem_unique cleanup.stored lookup
      exact .closed history (by simp) advanced

theorem kept_lineage {step now : RunStep} {control later : RunExecutionControl} (sound : Sound db)
    (event : StepEvent db commit stepId step now)
    (unreserved : commit ≠ .attemptReserved stepId) (found : db.step? stepId = some step)
    (stored : db.control = some control) (newer : control.version ≤ later.version)
    (present : db.operations.get? stepId = some operation) :
    AttemptLineage now operation later.version := by
  have lineage := (sound.lineage control stepId step operation stored found present).mono newer
  obtain ⟨same, again, callable, binds⟩ := sound.binding.operations stepId operation present
  obtain rfl := Option.mem_unique found again
  simp only [RunStep.callable, Bool.and_eq_true, decide_eq_true_eq] at callable
  cases event with
  | kept => exact lineage
  | readied advanced => exact lineage.moved callable.1 advanced (by simp)
  | released advanced => exact lineage.moved callable.1 advanced (by simp)
  | started _ uncontrolled =>
      simp only [operationBindsStep, Bool.and_eq_true, decide_eq_true_eq] at binds
      rw [Database.operation?_eq_some.mpr ⟨present, binds.1.1.1.1.1.1.1.1⟩] at uncontrolled
      cases uncontrolled
  | attempted _ reserved => exact absurd reserved unreserved
  | called advanced => exact lineage.moved callable.1 advanced (by simp)
  | executed _ _ uncallable => exact absurd uncallable.2 callable.2
  | closed ends advanced =>
      refine lineage.moved callable.1 advanced ?_
      rintro rfl
      simp at ends

theorem established_lineage (sound : Sound db) (committed : Committed db commit after)
    (established : commit ≠ .planPersisted) (stored : after.control = some later)
    (lookup : after.step? stepId = some now)
    (present : after.operations.get? stepId = some operation) :
    AttemptLineage now operation later.version := by
  have plan := committed.samePlan established
  obtain ⟨step, found, _⟩ := plan.steps.source lookup
  by_cases reserves : commit = .attemptReserved stepId
  · subst reserves
    cases committed with
    | attemptReserved reserved => exact sound.reserved_lineage reserved found lookup stored present
  · by_cases closes : commit = .attemptClosed stepId
    · subst closes
      cases committed with
      | attemptClosed closed => exact sound.closed_lineage closed found lookup stored present
    · obtain ⟨again, same, event⟩ := committed.stepEvent sound.binding established found
      obtain rfl := Option.mem_unique lookup same
      rw [committed.operation_kept established reserves closes] at present
      have hashes := plan.control
      rw [stored, Option.map_some] at hashes
      obtain ⟨control, earlier, _⟩ := Option.map_eq_some_iff.mp hashes.symm
      obtain ⟨again, same, newer⟩ := committed.control established earlier
      obtain rfl := Option.mem_unique stored same
      exact sound.kept_lineage event reserves found earlier newer present

theorem persisted (sound : Sound db) (persisted : PlanPersisted db plan after) :
    Sound after := by
  have undecided := sound.undecided (by simp [persisted.validated])
  have operations : ∀ {stepId operation}, after.operations.get? stepId = some operation →
      operation.attempts = [] := by
    intro stepId operation found
    rw [persisted.operations] at found
    exact (plan.operation_fresh found).1
  refine {
    binding := persisted.binding sound.binding undecided
    undecided := ?_
    decided := by simp [persisted.approvalRequired]
    positive := ?_
    lineage := ?_
    identified := ?_ }
  · rw [persisted.run]
    split <;> simp
  · intro control stored
    rw [persisted.control, Option.some.injEq] at stored
    rw [← stored, plan.control_fresh.2.1]
    exact Nat.one_pos
  · intro control stepId step operation _ lookup present
    rw [persisted.operations] at present
    obtain ⟨unattempted, sealed, planned, callable, _⟩ := plan.operation_fresh present
    have read : sealed.effect ≠ .write := by
      simp only [RunStep.callable, Bool.and_eq_true, decide_eq_true_eq] at callable
      simp [callable.1]
    obtain ⟨now, again, same | ⟨waits, _⟩⟩ := persisted.steps.cases
      (fun _ member => Table.get?_eq_some_iff.mpr (List.mem_filter.mp member).1) planned
    · obtain rfl := Option.mem_unique lookup again
      obtain ⟨pending, version, _⟩ := plan.step_fresh planned
      rw [same]
      exact .fresh unattempted version pending
    · have writes := (List.mem_filter.mp waits).2
      exact absurd (of_decide_eq_true writes) read
  · intro stepId operation otherId other found _ attempt member
    simp [operations found] at member

theorem step (sound : Sound db) (committed : Committed db commit after) : Sound after := by
  by_cases established : commit ≠ .planPersisted
  · have plan := committed.samePlan established
    refine {
      binding := sound.binding.of_samePlan plan fun none_ =>
        (committed.head established).trans none_
      undecided := ?_
      decided := ?_
      positive := ?_
      lineage := fun control stepId step operation stored lookup present =>
        sound.established_lineage committed established stored lookup present
      identified := ?_ }
    · intro waiting
      rw [plan.approvalRequired]
      rcases committed.run established with same | ⟨command, ordinary, direct, advanced⟩
      · exact sound.undecided (same ▸ waiting)
      · have moved := advanced.moved
        cases command with
        | receive => exact moved.elim
        | recordPlan => exact absurd rfl ordinary
        | markValidated => exact sound.undecided (by simp [moved.1])
        | activatePlan => simp [moved.2.2, if_neg (direct rfl)] at waiting
        | complete | releaseApprovedPlan | rejectApproval => simp [moved.2.1] at waiting
        | fail | cancel => simp [moved.1] at waiting
    · intro planned
      rw [plan.approvalRequired]
      rcases committed.run established with same | ⟨command, ordinary, _, advanced⟩
      · exact sound.decided (same ▸ planned)
      · have moved := advanced.moved
        cases command with
        | receive => exact moved.elim
        | recordPlan => exact absurd rfl ordinary
        | markValidated | rejectApproval => simp [moved.2.1] at planned
        | activatePlan | complete | releaseApprovedPlan => exact sound.decided (by simp [moved.1])
        | fail | cancel => simp [moved.1] at planned
    · intro control stored
      have hashes := plan.control
      rw [stored, Option.map_some] at hashes
      obtain ⟨before, earlier, _⟩ := Option.map_eq_some_iff.mp hashes.symm
      obtain ⟨later, same, newer⟩ := committed.control established earlier
      obtain rfl := Option.mem_unique stored same
      exact Nat.lt_of_lt_of_le (sound.positive before earlier) newer
    · intro stepId operation otherId other found lookup attempt member again listed same
      rcases committed.attempt_source established found member with
        ⟨before, present, earlier, earlierListed, named⟩ | ⟨reserves, absent⟩
      · rcases committed.attempt_source established lookup listed with
          ⟨former, kept, first, firstListed, firstNamed⟩ | ⟨_, absent⟩
        · exact sound.identified stepId before otherId former present kept earlier
            earlierListed first firstListed (named.trans (same.trans firstNamed.symm))
        · exact absurd (named.trans same)
            (Database.attempt?_eq_none absent present earlier earlierListed)
      · rcases committed.attempt_source established lookup listed with
          ⟨former, kept, first, firstListed, firstNamed⟩ | ⟨reservesOther, _⟩
        · exact absurd (firstNamed.trans same.symm)
            (Database.attempt?_eq_none absent kept first firstListed)
        · exact Commit.attemptReserved.inj (reserves.symm.trans reservesOther)
  · rw [not_not] at established
    subst established
    cases committed with
    | planPersisted persisted => exact sound.persisted persisted

theorem reachable {allowed : Database → ServiceTransaction → Prop}
    (reached : serviceMachine.ReachableWhere allowed db) : Sound db := by
  refine reached.invariant Sound of_received ?_
  intro db transaction after sound _ stepped
  obtain ⟨_, _, committed⟩ := sound.commits stepped
  exact sound.step committed

end Sound

end MarketingAgents
