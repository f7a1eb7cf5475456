import MarketingAgents.Domain.RunRecords

namespace MarketingAgents

open Library

/-! # Run histories

What a legal command may change, that the records of an accepted command pass
their own checks, and what follows for every sequence of commands applied to a
received run.
-/

/-- The sets of required, current and approved hashes agree with the hashes
that have an expiry, and no approval has expired. -/
structure CompleteBarrier (required current approved : List String)
    (expiresAtByHash : List (String × Time)) (occurredAt : Time) : Prop where
  current : ∀ hash, hash ∈ required ↔ hash ∈ current
  approved : ∀ hash, hash ∈ required ↔ hash ∈ approved
  expiring : ∀ hash, hash ∈ required ↔ ∃ expiresAt, (hash, expiresAt) ∈ expiresAtByHash
  unexpired : ∀ expiry ∈ expiresAtByHash, occurredAt < expiry.2

theorem sameMembers_iff :
    sameMembers left right = true ↔ ∀ hash, hash ∈ left ↔ hash ∈ right := by
  simp only [sameMembers, Bool.and_eq_true, List.all_eq_true, decide_eq_true_eq]
  constructor
  · rintro ⟨forward, backward⟩ hash
    exact ⟨forward hash, backward hash⟩
  · intro same
    exact ⟨fun hash => (same hash).mp, fun hash => (same hash).mpr⟩

/-- Everything that an accepted command promises about the state it leads to. -/
structure RunAdvance (run : Run) (input : RunTransitionInput) (newState : RunState)
    (reasonCode : String) (approvalRequired : Option Bool) : Prop where
  edge : (run.state, newState) ∈ allowedRunEdges input.command
  requested : requestedRunState run input.command = some newState
  stable : requireId reasonCode "transition reason code" = .ok ()
  disposition : run.state = .validated ∧ newState = .planned ∧ approvalRequired.isSome ∨
    newState ≠ .planned ∧ approvalRequired = run.approvalRequired
  activated : input.command = .activatePlan →
    newState = if approvalRequired = some true then .awaitingApproval else .executing
  counted : input.command = .cancel ∨ input.context.effectCounts = (0, 0)
  released : input.command = .releaseApprovedPlan → ∃ required current approved expiresAtByHash,
    input.context = .approvalBarrier required current approved expiresAtByHash ∧
      CompleteBarrier required current approved expiresAtByHash input.occurredAt

theorem completeBarrier_of_checks {expiresAtByHash : List (String × Time)} {occurredAt : Time}
    (checks : sameMembers required current ∧ sameMembers required approved ∧
      sameMembers required (expiresAtByHash.map Prod.fst) ∧
      ∀ expiry ∈ expiresAtByHash, occurredAt < expiry.2) :
    CompleteBarrier required current approved expiresAtByHash occurredAt := by
  obtain ⟨current, approved, expiring, unexpired⟩ := checks
  refine ⟨sameMembers_iff.mp current, sameMembers_iff.mp approved, fun hash => ?_, unexpired⟩
  rw [sameMembers_iff.mp expiring hash]
  simp

theorem RunTransitionContext.reason_stable {context : RunTransitionContext}
    (valid : context.validate = .ok ()) :
    (∀ phase failureCode, context = .failure phase failureCode →
      requireId failureCode "transition reason code" = .ok ()) ∧
    ∀ reasonCode completed unknown, context = .cancellation reasonCode completed unknown →
      requireId reasonCode "transition reason code" = .ok () := by
  constructor
  · rintro phase failureCode rfl
    exact requireId_ok _ valid
  · rintro reasonCode completed unknown rfl
    exact requireId_ok _ valid

/-- One legal command, told once for all results about runs. -/
theorem nextRunState_advance {run : Run} {input : RunTransitionInput} {newState : RunState}
    {reasonCode : String} {approvalRequired : Option Bool} (valid : input.context.validate = .ok ())
    (live : run.state.terminal = false)
    (accepted : nextRunState run input.command input.context input.occurredAt =
      .ok (newState, reasonCode, approvalRequired)) :
    RunAdvance run input newState reasonCode approvalRequired := by
  obtain ⟨command, context, occurredAt⟩ := input
  obtain ⟨failing, cancelling⟩ := context.reason_stable valid
  cases command with
  | receive => cases context <;> cases accepted
  | markValidated =>
      cases context <;> simp only [nextRunState, reject_ok] at accepted
      split at accepted
      case isFalse => cases accepted
      case isTrue received =>
        cases accepted
        exact ⟨by simp [allowedRunEdges, received], rfl, by decide, .inr ⟨by decide, rfl⟩, nofun,
          .inr rfl, nofun⟩
  | recordPlan =>
      cases context <;> simp only [nextRunState, reject_ok] at accepted
      split at accepted
      case isFalse => cases accepted
      case isTrue validated =>
        cases accepted
        exact ⟨by simp [allowedRunEdges, validated], rfl, by decide, .inl ⟨validated, rfl, rfl⟩,
          nofun, .inr rfl, nofun⟩
  | activatePlan =>
      cases context <;> simp only [nextRunState, reject_ok] at accepted
      split at accepted
      case isFalse => cases accepted
      case isTrue planned =>
        split at accepted
        case isTrue writes =>
          cases accepted
          exact ⟨by simp [allowedRunEdges, planned], by simp [requestedRunState, writes], by decide,
            .inr ⟨by decide, rfl⟩, by simp [writes], .inr rfl, nofun⟩
        case isFalse reads =>
          cases accepted
          exact ⟨by simp [allowedRunEdges, planned], by simp [requestedRunState, reads], by decide,
            .inr ⟨by decide, rfl⟩, by simp [reads], .inr rfl, nofun⟩
  | releaseApprovedPlan =>
      cases context <;> simp only [nextRunState, reject_ok] at accepted
      split at accepted
      case isFalse => cases accepted
      case isTrue awaiting =>
        split at accepted
        case isFalse => cases accepted
        case isTrue checks =>
          cases accepted
          exact ⟨by simp [allowedRunEdges, awaiting], rfl, by decide, .inr ⟨by decide, rfl⟩,
            nofun, .inr rfl, fun _ => ⟨_, _, _, _, rfl, completeBarrier_of_checks checks⟩⟩
  | rejectApproval =>
      cases context <;> simp only [nextRunState, reject_ok] at accepted
      split at accepted
      case isFalse => cases accepted
      case isTrue awaiting =>
        split at accepted
        case isFalse => cases accepted
        case isTrue =>
          cases accepted
          exact ⟨by simp [allowedRunEdges, awaiting], rfl, by decide, .inr ⟨by decide, rfl⟩, nofun,
            .inr rfl, nofun⟩
  | complete =>
      cases context <;> simp only [nextRunState, reject_ok] at accepted
      split at accepted
      case isFalse => cases accepted
      case isTrue executing =>
        split at accepted
        case isFalse => cases accepted
        case isTrue =>
          cases accepted
          exact ⟨by simp [allowedRunEdges, executing], rfl, by decide, .inr ⟨by decide, rfl⟩, nofun,
            .inr rfl, nofun⟩
  | fail =>
      cases context <;> simp only [nextRunState, reject_ok] at accepted
      split at accepted
      case isFalse => cases accepted
      case isTrue inPhase =>
        cases accepted
        refine ⟨?_, rfl, failing _ _ rfl, .inr ⟨by decide, rfl⟩, nofun, .inr rfl, nofun⟩
        cases state : run.state <;> simp [state, allowedFailurePhase, allowedRunEdges] at inPhase ⊢
  | cancel =>
      cases context <;> simp only [nextRunState, reject_ok] at accepted
      split at accepted
      case isTrue => cases accepted
      case isFalse =>
        cases accepted
        refine ⟨?_, rfl, cancelling _ _ _ rfl, .inr ⟨by decide, rfl⟩, nofun, .inl rfl, nofun⟩
        cases state : run.state <;> simp [state, allowedRunEdges, RunState.terminal] at live ⊢

namespace RunRecord

variable {run : RunRecord} {input : RunTransitionInput} {newState : RunState} {reasonCode : String}
variable {approvalRequired : Option Bool}

/-- What the checks of a run say about its lifecycle state. -/
structure Consistent (run : RunRecord) : Prop where
  ordered : run.createdAt ≤ run.updatedAt
  positive : 1 ≤ run.version
  unplanned : run.state ∈ [.received, .validated] → run.approvalRequired = none
  planned : run.state ∈ [.planned, .awaitingApproval, .executing, .completed, .rejected] →
    run.approvalRequired ≠ none
  writes : run.state ∈ [.awaitingApproval, .rejected] → run.approvalRequired = some true

/-- The part of a run's checks that no transition can affect. -/
def validateIdentity (run : RunRecord) : Except Rejection Unit := do
  requireId run.id "run ID"
  requireId run.workItemId "work item ID"
  requireDigest (removePrefix "catalog-sha256-v1:" run.catalogHash) "catalog hash"
  require (1 ≤ run.configurationRevision) "ValueError" "run revisions must be positive"

theorem validate_ok : run.validate = .ok () ↔ run.validateIdentity = .ok () ∧ run.Consistent ∧
    run.state.terminal = run.terminalReasonCode.isSome ∧
    requireOptional (requireId · "terminal reason code") run.terminalReasonCode = .ok () := by
  simp only [validate, validateIdentity, bind_ok, require_ok]
  constructor
  · rintro ⟨_, id, _, work, _, catalog, _, ordered, _, revisions, _, unplanned, _,
      planned, _, writes, _, terminal, reason⟩
    exact ⟨⟨_, id, _, work, _, catalog, revisions.1⟩,
      ⟨ordered, revisions.2, unplanned, planned, writes⟩, terminal, reason⟩
  · rintro ⟨⟨_, id, _, work, _, catalog, revision⟩, consistent, terminal, reason⟩
    exact ⟨(), id, (), work, (), catalog, (), consistent.ordered, (),
      ⟨revision, consistent.positive⟩, (),
      consistent.unplanned, (), consistent.planned, (), consistent.writes, (), terminal, reason⟩

theorem Consistent.advanced (consistent : run.Consistent)
    (current : run.updatedAt ≤ input.occurredAt)
    (advance : RunAdvance run.toRun input newState reasonCode approvalRequired) :
    (run.advanced input newState reasonCode approvalRequired).run.Consistent := by
  obtain ⟨command, context, occurredAt⟩ := input
  obtain ⟨edge, _, _, disposition, activated, _, _⟩ := advance
  obtain ⟨ordered, positive, unplanned, planned, writes⟩ := consistent
  refine ⟨Nat.le_trans ordered current, Nat.le_add_left 1 _, ?_, ?_, ?_⟩
  all_goals
    intro member
    simp only [RunRecord.advanced, List.mem_cons, List.not_mem_nil,
      or_false] at member unplanned planned writes ⊢
    cases command <;> simp only [allowedRunEdges, List.mem_cons, List.not_mem_nil, or_false,
      Prod.mk.injEq] at edge
  all_goals grind

theorem advanced_valid (valid : run.validate = .ok ()) (current : run.updatedAt ≤ input.occurredAt)
    (advance : RunAdvance run.toRun input newState reasonCode approvalRequired) :
    (run.advanced input newState reasonCode approvalRequired).run.validate = .ok () := by
  obtain ⟨identity, consistent, _, _⟩ := validate_ok.mp valid
  refine validate_ok.mpr ⟨identity, consistent.advanced current advance, ?_, ?_⟩
  · cases terminal : newState.terminal <;> simp [RunRecord.advanced, terminal]
  · rw [requireOptional_ok]
    intro reason recorded
    cases terminal : newState.terminal with
    | false => simp [RunRecord.advanced, terminal] at recorded
    | true =>
        obtain rfl : reasonCode = reason := by simpa [RunRecord.advanced, terminal] using recorded
        exact requireId_ok _ advance.stable

theorem edge_changes {before after : RunState}
    (edge : (before, after) ∈ allowedRunEdges command) : command ≠ .receive ∧ before ≠ after := by
  cases command <;> simp only [allowedRunEdges, List.mem_cons, List.not_mem_nil, or_false,
    Prod.mk.injEq] at edge
  all_goals grind

theorem advanced_transition_valid (valid : run.validate = .ok ())
    (advance : RunAdvance run.toRun input newState reasonCode approvalRequired) :
    (run.advanced input newState reasonCode approvalRequired).transition.validate = .ok () := by
  obtain ⟨identity, consistent, _, _⟩ := validate_ok.mp valid
  simp only [validateIdentity, bind_ok, require_ok] at identity
  obtain ⟨_, named, _⟩ := identity
  have later : run.version + 1 ≠ 1 := by have := consistent.positive; omega
  obtain ⟨command, context, occurredAt⟩ := input
  obtain ⟨submitted, changes⟩ := edge_changes advance.edge
  have edge : (run.advanced ⟨command, context, occurredAt⟩ newState reasonCode
      approvalRequired).transition.validateEdge = .ok () := by
    simp only [RunTransitionRecord.validateEdge, RunRecord.advanced, later, if_false]
    cases command
    case receive => exact absurd rfl submitted
    all_goals exact bind_ok.mpr ⟨(), require_ok.mpr changes, require_ok.mpr advance.edge⟩
  simp only [RunTransitionRecord.validate, bind_ok, require_ok]
  refine ⟨(), requireId_ok _ named, (), advance.stable, (), ⟨rfl, rfl⟩, (),
    Nat.le_add_left 1 _, (), edge, ?_⟩
  rcases advance.counted with cancelled | uncounted
  · exact .inl cancelled
  · exact .inr ⟨congrArg Prod.fst uncounted, congrArg Prod.snd uncounted⟩

theorem advanced_outcome_valid (valid : run.validate = .ok ())
    (current : run.updatedAt ≤ input.occurredAt)
    (advance : RunAdvance run.toRun input newState reasonCode approvalRequired) :
    (run.advanced input newState reasonCode approvalRequired).validate = .ok () := by
  have consistent := (validate_ok.mp valid).2.1.advanced current advance
  simp only [RunTransitionOutcome.validate, bind_ok, require_ok]
  refine ⟨(), advanced_transition_valid valid advance, (), ⟨rfl, rfl, rfl, rfl⟩, (), ?_, (), ?_, (),
    advance.activated, ?_⟩
  · simp [RunTransitionOutcome.evidenceConsistent, RunRecord.advanced, RunRecord.evidence,
      advance.requested]
  · cases terminal : newState.terminal <;> simp [RunRecord.advanced, terminal]
  · intro released
    have edge := advance.edge
    obtain ⟨command, context, occurredAt⟩ := input
    have disposition := advance.disposition
    have awaiting := (validate_ok.mp valid).2.1.writes
    simp only [RunRecord.advanced, List.mem_cons, List.not_mem_nil, or_false] at released awaiting ⊢
    rcases released with rfl | rfl
    all_goals
      simp only [allowedRunEdges, List.mem_cons, List.not_mem_nil, or_false, Prod.mk.injEq] at edge
      grind

theorem advanced_constructed (valid : run.validate = .ok ())
    (current : run.updatedAt ≤ input.occurredAt)
    (advance : RunAdvance run.toRun input newState reasonCode approvalRequired) :
    (run.advanced input newState reasonCode approvalRequired).construct = .ok () :=
  bind_ok.mpr ⟨(), advanced_valid valid current advance,
    bind_ok.mpr ⟨(), advanced_transition_valid valid advance,
      advanced_outcome_valid valid current advance⟩⟩

theorem transition_cases (valid : run.validate = .ok ()) (typed : input.context.validate = .ok ()) :
    (∃ code message, run.transition input = .error
      (.refused code message (run.evidence input false code))) ∨
    ∃ newState reasonCode approvalRequired, run.state.terminal = false ∧
    run.updatedAt ≤ input.occurredAt ∧
      RunAdvance run.toRun input newState reasonCode approvalRequired ∧
      run.transition input = .ok (run.advanced input newState reasonCode approvalRequired) := by
  by_cases stale : input.occurredAt < run.updatedAt
  · exact .inl ⟨_, _, if_pos stale⟩
  cases terminal : run.state.terminal with
  | true =>
      exact .inl
        ⟨_, _, by simp only [RunRecord.transition, stale, terminal, if_true, if_false]; rfl⟩
  | false =>
      rw [RunRecord.transition, if_neg stale, if_neg (by simp [terminal])]
      cases next : nextRunState run.toRun input.command input.context input.occurredAt with
      | error reason => exact .inl ⟨_, _, rfl⟩
      | ok result =>
          obtain ⟨newState, reasonCode, approvalRequired⟩ := result
          have current := Nat.le_of_not_lt stale
          have advance := nextRunState_advance typed terminal next
          refine .inr ⟨newState, reasonCode, approvalRequired, rfl, current, advance, ?_⟩
          simp only [advanced_constructed valid current advance]

theorem transition_refines (valid : run.validate = .ok ())
    (typed : input.context.validate = .ok ()) :
    (run.transition input).toOption.map (fun result =>
      (result.run.toRun, result.transition.toRunStateTransition)) =
      (transitionRun run.toRun input.command input.context input.occurredAt).toOption.map
        fun result => (result.run, result.transition) := by
  by_cases stale : input.occurredAt < run.updatedAt
  · simp [RunRecord.transition, transitionRun, stale, Nat.not_le.mpr stale, refuse, require, reject,
      Except.toOption, bind, Except.bind]
  have current := Nat.le_of_not_lt stale
  cases terminal : run.state.terminal with
  | true =>
      simp [RunRecord.transition, transitionRun, stale, current, terminal, refuse, require, reject,
        Except.toOption, bind, Except.bind]
  | false =>
      cases next : nextRunState run.toRun input.command input.context input.occurredAt with
      | error reason =>
          simp [RunRecord.transition, transitionRun, stale, current, terminal, next, refuse,
            require, Except.toOption, bind, Except.bind]
      | ok result =>
          obtain ⟨newState, reasonCode, approvalRequired⟩ := result
          have constructed := advanced_constructed valid current
            (nextRunState_advance typed terminal next)
          have accepted : run.transition input = .ok
              (run.advanced input newState reasonCode approvalRequired) := by
            simp [RunRecord.transition, stale, terminal, next, constructed]
          rw [accepted]
          simp [transitionRun, current, terminal, next, require, Except.toOption, bind, Except.bind,
            pure, Except.pure]
          exact ⟨rfl, rfl⟩

end RunRecord

/-- An accepted command: the context it was submitted with and what it left behind. -/
structure AcceptedRunTransition where
  context : RunTransitionContext
  outcome : RunTransitionOutcome
deriving DecidableEq

/-- The run that was received, the run as it is now and what was accepted in between. -/
structure RunHistory where
  origin : RunRecord
  run : RunRecord
  accepted : List AcceptedRunTransition
deriving DecidableEq

def RunHistory.received (run : RunRecord) : RunHistory := ⟨run, run, []⟩

/-- Submit one command; a refusal leaves the history as it is. -/
def RunHistory.submit (history : RunHistory) (input : RunTransitionInput) : RunHistory :=
  match history.run.transition input with
  | .error _ => history
  | .ok outcome =>
      { history with
        run := outcome.run, accepted := history.accepted ++ [⟨input.context, outcome⟩] }

/-- Any commands with well-formed contexts, submitted one after the other for a received run. -/
def runHistories : Machine RunHistory RunTransitionInput where
  initial history := ∃ run : RunRecord, run.validate = .ok () ∧ run.state = .received ∧
    history = .received run
  step history input after := input.context.validate = .ok () ∧ after = history.submit input

/-- A state that a run only reaches after its plan was recorded. -/
def RunState.planKnown (state : RunState) : Prop := state ≠ .received ∧ state ≠ .validated

/-- A released plan was complete, current and unexpired when it was released. -/
def AcceptedRunTransition.Released (applied : AcceptedRunTransition) : Prop :=
  applied.outcome.transition.command = .releaseApprovedPlan ∧
    ∃ required current approved expiresAtByHash,
      applied.context = .approvalBarrier required current approved expiresAtByHash ∧
        CompleteBarrier required current approved expiresAtByHash
          applied.outcome.transition.occurredAt

/-- What every sequence of commands keeps. -/
structure RunHistory.Ordered (history : RunHistory) : Prop where
  valid : history.run.validate = .ok ()
  latest : history.run = (history.accepted.map (·.outcome.run)).getLast?.getD history.origin
  versions : history.accepted.map (·.outcome.transition.expectedVersion) =
    List.range' history.origin.version history.accepted.length
  version : history.run.version = history.origin.version + history.accepted.length
  records : ∀ applied ∈ history.accepted, applied.outcome.run.validate = .ok () ∧
    applied.outcome.transition.validate = .ok () ∧ applied.outcome.validate = .ok ()
  times : (history.origin.updatedAt :: history.accepted.map
    (·.outcome.transition.occurredAt)).Pairwise (· ≤ ·)
  past : ∀ time ∈ history.origin.updatedAt :: history.accepted.map
    (·.outcome.transition.occurredAt), time ≤ history.run.updatedAt
  entered : ∀ applied ∈ history.accepted, applied.outcome.transition.newState = .executing →
    history.run.state.planKnown ∧ applied.outcome.run.approvalRequired =
      history.run.approvalRequired ∧
      (applied.outcome.run.approvalRequired = some true → applied.Released)

namespace RunAdvance

variable {run : RunRecord} {input : RunTransitionInput} {newState : RunState} {reasonCode : String}
variable {approvalRequired : Option Bool}

theorem keeps_plan (advance : RunAdvance run.toRun input newState reasonCode approvalRequired)
    (known : run.state.planKnown) : newState.planKnown ∧
      approvalRequired = run.approvalRequired := by
  have edge := advance.edge
  have disposition := advance.disposition
  simp only [RunState.planKnown] at known ⊢
  cases command : input.command <;>
    simp only [command, allowedRunEdges, List.mem_cons, List.not_mem_nil, or_false,
      Prod.mk.injEq] at edge
  all_goals grind

theorem enters (advance : RunAdvance run.toRun input newState reasonCode approvalRequired)
    (executing : newState = .executing) (writes : approvalRequired = some true) :
    input.command = .releaseApprovedPlan ∧ ∃ required current approved expiresAtByHash,
      input.context = .approvalBarrier required current approved expiresAtByHash ∧
        CompleteBarrier required current approved expiresAtByHash input.occurredAt := by
  have released : input.command = .releaseApprovedPlan := by
    have edge := advance.edge
    have activated := advance.activated
    cases command : input.command <;>
      simp only [command, allowedRunEdges, List.mem_cons, List.not_mem_nil, or_false,
        Prod.mk.injEq] at edge activated ⊢
    all_goals grind
  exact ⟨released, advance.released released⟩

end RunAdvance

namespace RunHistory

variable {history : RunHistory} {input : RunTransitionInput}

theorem Ordered.received {run : RunRecord} (valid : run.validate = .ok ()) :
    (RunHistory.received run).Ordered where
  valid
  latest := rfl
  versions := rfl
  version := rfl
  records _ member := absurd member List.not_mem_nil
  times := List.pairwise_singleton _ _
  past := by simp [RunHistory.received]
  entered _ member := absurd member List.not_mem_nil

theorem Ordered.submit (ordered : history.Ordered) (typed : input.context.validate = .ok ()) :
    (history.submit input).Ordered := by
  rcases RunRecord.transition_cases ordered.valid typed with ⟨code, message, refused⟩ |
    ⟨newState, reasonCode, approvalRequired, _, current, advance, accepted⟩
  · simpa only [RunHistory.submit, refused] using ordered
  · simp only [RunHistory.submit, accepted]
    have valid := RunRecord.advanced_valid ordered.valid current advance
    exact {
      valid
      latest := by simp
      versions := by simp [ordered.versions, RunRecord.advanced, ordered.version,
        List.range'_concat]
      version := by simp [RunRecord.advanced, ordered.version, Nat.add_assoc]
      records := by
        intro applied member
        rcases List.mem_append.mp member with before | last
        · exact ordered.records applied before
        · obtain rfl := List.mem_singleton.mp last
          exact ⟨valid, RunRecord.advanced_transition_valid ordered.valid advance,
            RunRecord.advanced_outcome_valid ordered.valid current advance⟩
      times := by
        rw [List.map_append, ← List.cons_append, List.pairwise_append]
        refine ⟨ordered.times, List.pairwise_singleton _ _, fun time earlier last newest => ?_⟩
        obtain rfl := List.mem_singleton.mp newest
        exact Nat.le_trans (ordered.past time earlier) current
      past := by
        rw [List.map_append, ← List.cons_append]
        intro time member
        rcases List.mem_append.mp member with before | last
        · exact Nat.le_trans (ordered.past time before) current
        · obtain rfl := List.mem_singleton.mp last
          exact Nat.le_refl _
      entered := by
        intro applied member executing
        rcases List.mem_append.mp member with before | last
        · obtain ⟨known, same, released⟩ := ordered.entered applied before executing
          obtain ⟨still, kept⟩ := advance.keeps_plan known
          exact ⟨still, same.trans kept.symm, released⟩
        · obtain rfl := List.mem_singleton.mp last
          refine ⟨?_, rfl, fun writes => advance.enters executing writes⟩
          have now : newState = .executing := executing
          subst now
          exact ⟨by simp [RunRecord.advanced], by simp [RunRecord.advanced]⟩ }

theorem ordered_reachable (reached : runHistories.Reachable history) : history.Ordered := by
  refine Machine.Reachable.invariant RunHistory.Ordered reached ?_ ?_
  · rintro _ ⟨run, valid, _, rfl⟩
    exact .received valid
  · rintro before input _ ordered ⟨typed, rfl⟩
    exact ordered.submit typed

theorem submit_terminal (terminal : history.run.state.terminal = true) :
    history.submit input = history := by
  have refused : ∃ failure, history.run.transition input = .error failure := by
    by_cases stale : input.occurredAt < history.run.updatedAt
    · exact ⟨_, if_pos stale⟩
    · exact ⟨_, by rw [RunRecord.transition, if_neg stale, if_pos terminal]; rfl⟩
  obtain ⟨failure, refused⟩ := refused
  simp only [RunHistory.submit, refused]

theorem run_terminal (terminal : history.run.state.terminal = true)
    (run : runHistories.Run history later) : later = history := by
  induction run with
  | refl => rfl
  | tail input _ _ stepped ih =>
      obtain ⟨_, rfl⟩ := stepped
      rw [ih]
      exact submit_terminal terminal

end RunHistory

/-- For every sequence of commands from a received run: versions are contiguous, times do not
decrease, execution of a writing plan was released, terminal runs stay as they are, and a
command is refused with evidence or yields records that pass their own checks. -/
theorem runHistories_guaranteed {history : RunHistory} (reached : runHistories.Reachable history) :
    (history.run = (history.accepted.map (·.outcome.run)).getLast?.getD history.origin ∧
      (∀ applied ∈ history.accepted, applied.outcome.transition.sequence =
        applied.outcome.transition.resultingVersion ∧
        applied.outcome.transition.resultingVersion =
          applied.outcome.transition.expectedVersion + 1) ∧
      history.accepted.map (·.outcome.transition.expectedVersion) =
        List.range' history.origin.version history.accepted.length ∧
      (history.origin.updatedAt :: history.accepted.map (·.outcome.transition.occurredAt)).Pairwise
        (· ≤ ·)) ∧
    (∀ applied ∈ history.accepted, applied.outcome.transition.newState = .executing →
      applied.outcome.run.approvalRequired = history.run.approvalRequired ∧
        (history.run.approvalRequired = some true → applied.Released)) ∧
    (history.run.state.terminal = true → ∀ later, runHistories.Run history later →
      later = history) ∧
    ∀ input : RunTransitionInput, input.context.validate = .ok () →
      (∃ code message, history.run.transition input =
        .error (.refused code message (history.run.evidence input false code))) ∨
      ∃ outcome, history.run.transition input = .ok outcome ∧ outcome.run.validate = .ok () ∧
        outcome.transition.validate = .ok () ∧ outcome.validate = .ok () := by
  have ordered := RunHistory.ordered_reachable reached
  refine ⟨⟨ordered.latest, ?_, ordered.versions, ordered.times⟩, ?_,
    fun terminal _ => RunHistory.run_terminal terminal, ?_⟩
  · intro applied member
    have checked := (ordered.records applied member).2.1
    simp only [RunTransitionRecord.validate, bind_ok, require_ok] at checked
    obtain ⟨_, _, _, _, _, contiguous, _⟩ := checked
    exact contiguous
  · intro applied member executing
    obtain ⟨_, same, released⟩ := ordered.entered applied member executing
    exact ⟨same, fun writes => released (same.trans writes)⟩
  · intro input typed
    rcases RunRecord.transition_cases ordered.valid typed with refused |
      ⟨newState, reasonCode, approvalRequired, _, current, advance, accepted⟩
    · exact .inl refused
    · exact .inr ⟨_, accepted, RunRecord.advanced_valid ordered.valid current advance,
        RunRecord.advanced_transition_valid ordered.valid advance,
        RunRecord.advanced_outcome_valid ordered.valid current advance⟩

namespace RunHistory

theorem reachable_foldl (reached : runHistories.Reachable history)
    {inputs : List RunTransitionInput} (typed : ∀ input ∈ inputs, input.context.validate = .ok ()) :
    runHistories.Reachable (inputs.foldl submit history) := by
  induction inputs generalizing history with
  | nil => exact reached
  | cons input rest ih =>
      have next : runHistories.Reachable (history.submit input) :=
        reached.next input ⟨typed input List.mem_cons_self, rfl⟩
      exact ih next fun later member => typed later (List.mem_cons_of_mem input member)

def actionHash : String := String.ofList (List.replicate 64 'a')

def receivedRun : RunRecord where
  id := "run-1"
  workItemId := "work-1"
  catalogHash := "catalog-sha256-v1:" ++ actionHash
  configurationRevision := 1
  state := .received
  version := 1
  createdAt := 10
  updatedAt := 10
  approvalRequired := none
  terminalReasonCode := none

def releasingInputs : List RunTransitionInput :=
  [⟨.markValidated, .none, 11⟩, ⟨.recordPlan, .planDisposition true, 12⟩,
    ⟨.activatePlan, .none, 13⟩, ⟨.activatePlan, .none, 14⟩,
    ⟨.releaseApprovedPlan, .approvalBarrier [actionHash] [actionHash] [actionHash]
      [(actionHash, 100)], 15⟩]

def releasedHistory : RunHistory := releasingInputs.foldl submit (.received receivedRun)

theorem releasedHistory_reachable : runHistories.Reachable releasedHistory :=
  reachable_foldl (.start ⟨receivedRun, by decide +kernel, rfl, rfl⟩) (by decide +kernel)

theorem releasedHistory_run : releasedHistory.run.state = .executing ∧
    releasedHistory.accepted.length = 4 ∧
    releasedHistory.run.approvalRequired = some true := by
  decide +kernel

end RunHistory

theorem runHistories_guaranteed_released :
    RunHistory.releasedHistory.run.state = .executing ∧
    RunHistory.releasedHistory.accepted.length = 4 ∧
      ∀ applied ∈ RunHistory.releasedHistory.accepted,
        applied.outcome.transition.newState = .executing →
        applied.Released := by
  obtain ⟨state, accepted, writes⟩ := RunHistory.releasedHistory_run
  refine ⟨state, accepted, fun applied member executing => ?_⟩
  have released := (runHistories_guaranteed RunHistory.releasedHistory_reachable).2.1 applied
    member executing
  exact released.2 writes

end MarketingAgents
