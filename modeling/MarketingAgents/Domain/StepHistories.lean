import MarketingAgents.Domain.StepRecords

namespace MarketingAgents

open Library

/-! # Step histories

What a legal step command may change, that its records pass their own checks,
and the order in which every sequence of commands takes a step through its
states.
-/

/-- Everything that an accepted command promises about the state it leads to. -/
structure StepAdvance (step : RunStep) (input : StepTransitionInput) (newState : StepState)
    (reasonCode : String) : Prop where
  edge : (step.state, newState) ∈ allowedStepEdges input.command
  stable : requireId reasonCode "step transition reason code" = .ok ()
  reads : input.command ∈ [.markReady, .start] → step.effect = .read
  writes : input.command ∈ [.waitForApproval, .releaseApproval, .startReservedWrite] →
    step.effect = .write

theorem plainTransition_iff {legal : Prop} [Decidable legal] :
    plainTransition context legal newState reasonCode message = .ok result ↔
      (legal ∧ context = .none) ∧ result = (newState, reasonCode) := by
  unfold plainTransition reject
  split
  case isTrue holds => simp [holds, eq_comm]
  case isFalse fails => simp [fails]

theorem terminalTransition_iff {legal : Prop} [Decidable legal] :
    terminalTransition context legal newState message = .ok result ↔
      ∃ reasonCode, context = .terminal reasonCode ∧ legal ∧ result = (newState, reasonCode) := by
  unfold terminalTransition reject
  cases context with
  | none => simp
  | terminal reasonCode =>
      by_cases holds : legal
      · simp [holds, eq_comm]
      · simp [holds]

theorem nextStepState_advance {input : StepTransitionInput} {newState : StepState}
    {reasonCode : String} (typed : input.context.validate = .ok ())
    (accepted : nextStepState step input.command input.context = .ok (newState, reasonCode)) :
    StepAdvance step input newState reasonCode := by
  obtain ⟨command, context, occurredAt⟩ := input
  have stable : ∀ reason, context = .terminal reason →
      requireId reason "step transition reason code" = .ok () := by
    rintro reason rfl
    exact requireId_ok _ typed
  cases command
  case initializeStep => cases accepted
  case markReady | start =>
    obtain ⟨⟨⟨state, effect⟩, _⟩, same⟩ := plainTransition_iff.mp accepted
    cases same
    exact ⟨by simp [allowedStepEdges, state], by decide, fun _ => effect, by simp⟩
  case waitForApproval | releaseApproval | startReservedWrite =>
    obtain ⟨⟨⟨state, effect⟩, _⟩, same⟩ := plainTransition_iff.mp accepted
    cases same
    exact ⟨by simp [allowedStepEdges, state], by decide, by simp, fun _ => effect⟩
  case succeed =>
    obtain ⟨⟨state, _⟩, same⟩ := plainTransition_iff.mp accepted
    cases same
    exact ⟨by simp [allowedStepEdges, state], by decide, by simp, by simp⟩
  case reject =>
    obtain ⟨_, terminal, state, same⟩ := terminalTransition_iff.mp accepted
    cases same
    exact ⟨by simp [allowedStepEdges, state], stable _ terminal, by simp, by simp⟩
  case fail | cancel | skip =>
    obtain ⟨_, terminal, state, same⟩ := terminalTransition_iff.mp accepted
    cases same
    simp only [List.mem_cons, List.not_mem_nil, or_false] at state
    exact ⟨by simpa [allowedStepEdges] using state, stable _ terminal, by simp, by simp⟩

theorem stepEdge_changes {before after : StepState}
    (edge : (before, after) ∈ allowedStepEdges command) :
      command ≠ .initializeStep ∧ before ≠ after := by
  cases command <;> simp only [allowedStepEdges, List.mem_cons, List.not_mem_nil, or_false,
    Prod.mk.injEq] at edge
  all_goals grind

namespace StepRecord

variable {runtimeRateLimitKey : String → Nat → Nat → String} {step : StepRecord}
variable {input : StepTransitionInput} {newState : StepState} {reasonCode : String}

theorem validate_ok : step.validate runtimeRateLimitKey = .ok () ↔
    (step.validateIdentity = .ok () ∧ step.validateContract = .ok () ∧
      step.validatePolicy runtimeRateLimitKey = .ok () ∧ step.validateConnector = .ok ()) ∧
    step.validateAuthority = .ok () ∧ step.validateLifecycle = .ok () := by
  simp only [validate, bind_ok]
  constructor
  · rintro ⟨_, identity, _, contract, _, policy, _, connector, _, authority, lifecycle⟩
    exact ⟨⟨identity, contract, policy, connector⟩, authority, lifecycle⟩
  · rintro ⟨⟨identity, contract, policy, connector⟩, authority, lifecycle⟩
    exact ⟨(), identity, (), contract, (), policy, (), connector, (), authority, lifecycle⟩

theorem validateAuthority_read (reads : step.effect = .read) : step.validateAuthority = .ok () ↔
    step.idempotencySupport = "not_applicable" ∧ step.state ∉ [.awaitingApproval, .rejected] ∧
      step.approvalRequiredRoles = [] ∧ step.approvalRequiredScopes = [] ∧
      step.approvalExpiresAfterSeconds = none ∧ step.approvalAllowSelfApproval = none := by
  simp only [validateAuthority, reads, require_ok]

theorem validateAuthority_write {other : StepRecord} (writes : step.effect = .write)
    (same : other = { step with
      state := other.state, updatedAt := other.updatedAt, version := other.version
      terminalReasonCode := other.terminalReasonCode }) :
    other.validateAuthority = step.validateAuthority := by
  rw [same]
  simp only [validateAuthority, writes]
  rfl

theorem read_unapproved (valid : step.validate runtimeRateLimitKey = .ok ())
    (reads : step.effect = .read) :
    step.state ≠ .awaitingApproval ∧ step.state ≠ .rejected := by
  obtain ⟨_, unapproved, _⟩ := (validateAuthority_read reads).mp (validate_ok.mp valid).2.1
  simpa using unapproved

theorem advanced_authority (valid : step.validate runtimeRateLimitKey = .ok ())
    (advance : StepAdvance step.toRunStep input newState reasonCode) :
    (step.advanced input newState reasonCode).step.validateAuthority = .ok () := by
  have authority := (validate_ok.mp valid).2.1
  cases effect : step.effect with
  | write => exact (validateAuthority_write effect rfl).trans authority
  | read =>
      obtain ⟨unwaiting, _⟩ := read_unapproved valid effect
      obtain ⟨idempotency, _, unapproved⟩ := (validateAuthority_read effect).mp authority
      have reads : (step.advanced input newState reasonCode).step.effect = .read := effect
      refine (validateAuthority_read reads).mpr ⟨idempotency, ?_, unapproved⟩
      have edge := advance.edge
      have writes := advance.writes
      simp only [StepRecord.advanced, List.mem_cons, List.not_mem_nil, or_false, not_or] at writes ⊢
      cases command : input.command <;>
        simp only [command, allowedStepEdges, List.mem_cons, List.not_mem_nil, or_false,
          Prod.mk.injEq] at edge writes ⊢
      all_goals grind

theorem advanced_valid (valid : step.validate runtimeRateLimitKey = .ok ())
    (current : step.updatedAt ≤ input.occurredAt)
    (advance : StepAdvance step.toRunStep input newState reasonCode) :
    (step.advanced input newState reasonCode).step.validate runtimeRateLimitKey = .ok () := by
  obtain ⟨sealing, _, lifecycle⟩ := validate_ok.mp valid
  refine validate_ok.mpr ⟨sealing, advanced_authority valid advance, ?_⟩
  simp only [validateLifecycle, bind_ok, require_ok] at lifecycle ⊢
  obtain ⟨_, ordered, _⟩ := lifecycle
  refine ⟨(), Nat.le_trans ordered current, (), Nat.le_add_left 1 _, (), ?_, ?_⟩
  · cases terminal : newState.terminal <;> simp [StepRecord.advanced, terminal]
  · rw [requireOptional_ok]
    intro reason recorded
    cases terminal : newState.terminal with
    | false => simp [StepRecord.advanced, terminal] at recorded
    | true =>
        obtain rfl : reasonCode = reason := by simpa [StepRecord.advanced, terminal] using recorded
        exact requireId_ok _ advance.stable

theorem advanced_transition_valid (valid : step.validate runtimeRateLimitKey = .ok ())
    (advance : StepAdvance step.toRunStep input newState reasonCode) :
    (step.advanced input newState reasonCode).transition.validate = .ok () := by
  obtain ⟨⟨identity, _⟩, _, lifecycle⟩ := validate_ok.mp valid
  simp only [validateIdentity, bind_ok] at identity
  simp only [validateLifecycle, bind_ok, require_ok] at lifecycle
  obtain ⟨_, named, _, run, _⟩ := identity
  obtain ⟨_, _, _, positive, _⟩ := lifecycle
  have later : step.version + 1 ≠ 1 := by omega
  obtain ⟨command, context, occurredAt⟩ := input
  obtain ⟨submitted, changes⟩ := stepEdge_changes advance.edge
  have edge : (step.advanced ⟨command, context, occurredAt⟩ newState
      reasonCode).transition.validateEdge = .ok () := by
    simp only [StepTransitionRecord.validateEdge, StepRecord.advanced, later, if_false]
    cases command
    case initializeStep => exact absurd rfl submitted
    all_goals exact bind_ok.mpr ⟨(), require_ok.mpr changes, require_ok.mpr advance.edge⟩
  simp only [StepTransitionRecord.validate, bind_ok, require_ok]
  exact ⟨(), requireId_ok _ named, (), requireId_ok _ run, (), advance.stable, (),
    ⟨rfl, rfl, Nat.le_add_left 1 _⟩, edge⟩

theorem advanced_outcome_valid (valid : step.validate runtimeRateLimitKey = .ok ())
    (advance : StepAdvance step.toRunStep input newState reasonCode) :
    (step.advanced input newState reasonCode).validate = .ok () := by
  simp only [StepTransitionOutcome.validate, bind_ok, require_ok]
  refine ⟨(), advanced_transition_valid valid advance, (), ⟨rfl, rfl, rfl, rfl, rfl⟩, (), ?_, (),
    advance.reads, ?_⟩
  · cases terminal : newState.terminal <;> simp [StepRecord.advanced, terminal]
  · intro approval
    have member : input.command ∈ [.waitForApproval, .releaseApproval, .startReservedWrite] ∨
        input.command = .reject := by
      simpa [StepRecord.advanced, or_assoc] using approval
    rcases member with writing | rejecting
    · exact advance.writes writing
    · have edge := advance.edge
      simp only [rejecting, allowedStepEdges, List.mem_cons, List.not_mem_nil, or_false,
        Prod.mk.injEq] at edge
      cases effect : step.effect with
      | write => exact effect
      | read => exact absurd edge.1 (read_unapproved valid effect).1

theorem advanced_constructed (valid : step.validate runtimeRateLimitKey = .ok ())
    (current : step.updatedAt ≤ input.occurredAt)
    (advance : StepAdvance step.toRunStep input newState reasonCode) :
    (step.advanced input newState reasonCode).construct runtimeRateLimitKey = .ok () :=
  bind_ok.mpr ⟨(), advanced_valid valid current advance,
    bind_ok.mpr ⟨(), advanced_transition_valid valid advance, advanced_outcome_valid valid advance⟩⟩

theorem transition_cases (valid : step.validate runtimeRateLimitKey = .ok ())
    (typed : input.context.validate = .ok ()) :
    (∃ reason, step.transition runtimeRateLimitKey input = .error (.refused reason)) ∨
    ∃ newState reasonCode, step.state.terminal = false ∧ step.updatedAt ≤ input.occurredAt ∧
      StepAdvance step.toRunStep input newState reasonCode ∧
      step.transition runtimeRateLimitKey input =
        .ok (step.advanced input newState reasonCode) := by
  by_cases stale : input.occurredAt < step.updatedAt
  · exact .inl ⟨_, if_pos stale⟩
  cases terminal : step.state.terminal with
  | true => exact .inl ⟨_, by rw [StepRecord.transition, if_neg stale, if_pos terminal]⟩
  | false =>
      rw [StepRecord.transition, if_neg stale, if_neg (by simp [terminal])]
      cases next : nextStepState step.toRunStep input.command input.context with
      | error reason => exact .inl ⟨_, rfl⟩
      | ok result =>
          obtain ⟨newState, reasonCode⟩ := result
          have current := Nat.le_of_not_lt stale
          have advance := nextStepState_advance typed next
          have constructed := advanced_constructed valid current advance
          exact .inr ⟨newState, reasonCode, rfl, current, advance, by simp only [constructed]⟩

theorem transition_refines (valid : step.validate runtimeRateLimitKey = .ok ())
    (typed : input.context.validate = .ok ()) :
    (step.transition runtimeRateLimitKey input).toOption.map
        (fun result => (result.step.toRunStep, result.transition.toStepStateTransition)) =
      (transitionStep step.id step.toRunStep input.command input.context
        input.occurredAt).toOption.map
        fun result => (result.step, result.transition) := by
  by_cases stale : input.occurredAt < step.updatedAt
  · simp [StepRecord.transition, transitionStep, stale, Nat.not_le.mpr stale, require, reject,
      Except.toOption, bind, Except.bind]
  have current := Nat.le_of_not_lt stale
  cases terminal : step.state.terminal with
  | true =>
      simp [StepRecord.transition, transitionStep, stale, current, terminal, require, reject,
        Except.toOption, bind, Except.bind]
  | false =>
      cases next : nextStepState step.toRunStep input.command input.context with
      | error reason =>
          simp [StepRecord.transition, transitionStep, stale, current, terminal, next, require,
            Except.toOption, bind, Except.bind]
      | ok result =>
          obtain ⟨newState, reasonCode⟩ := result
          have constructed := advanced_constructed valid current (nextStepState_advance typed next)
          have accepted : step.transition runtimeRateLimitKey input =
              .ok (step.advanced input newState reasonCode) := by
            simp [StepRecord.transition, stale, terminal, next, constructed]
          rw [accepted]
          simp [transitionStep, current, terminal, next, require, Except.toOption, bind,
            Except.bind, pure, Except.pure]
          exact ⟨rfl, rfl⟩

end StepRecord

/-- The step that was planned, the step as it is now and what was accepted in between. -/
structure StepHistory where
  origin : StepRecord
  step : StepRecord
  accepted : List StepTransitionOutcome
deriving DecidableEq

def StepHistory.planned (step : StepRecord) : StepHistory := ⟨step, step, []⟩

/-- Submit one command; a refusal leaves the history as it is. -/
def StepHistory.submit (runtimeRateLimitKey : String → Nat → Nat → String) (history : StepHistory)
    (input : StepTransitionInput) : StepHistory :=
  match history.step.transition runtimeRateLimitKey input with
  | .error _ => history
  | .ok outcome => { history with step := outcome.step, accepted := history.accepted ++ [outcome] }

/-- Any commands with well-formed contexts, submitted one after the other for a pending step. -/
def stepHistories (runtimeRateLimitKey : String → Nat → Nat → String) :
    Machine StepHistory StepTransitionInput where
  initial history := ∃ step : StepRecord, step.validate runtimeRateLimitKey = .ok () ∧
    step.state = .pending ∧
    history = .planned step
  step history input after := input.context.validate = .ok () ∧
    after = history.submit runtimeRateLimitKey input

def StepHistory.commands (history : StepHistory) : List StepLifecycleCommand :=
  history.accepted.map (·.transition.command)

/-- The commands that have led a writing step to each of its live states. -/
def writeCommands : StepState → Option (List StepLifecycleCommand)
  | .pending => some []
  | .awaitingApproval => some [.waitForApproval]
  | .ready => some [.waitForApproval, .releaseApproval]
  | .executing => some [.waitForApproval, .releaseApproval, .startReservedWrite]
  | _ => none

theorem writeCommands_advance
    (advance : StepAdvance step input newState reasonCode) (writes : step.effect = .write)
    {commands : List StepLifecycleCommand}
    (before : ∀ expected ∈ writeCommands step.state, commands = expected) :
    ∀ expected ∈ writeCommands newState, commands ++ [input.command] = expected := by
  have edge := advance.edge
  have reads : input.command ∉ [.markReady, .start] := by
    intro reading
    simp [advance.reads reading] at writes
  cases command : input.command <;>
    simp only [command, allowedStepEdges, List.mem_cons, List.not_mem_nil, or_false,
      Prod.mk.injEq] at edge reads
  all_goals simp_all [writeCommands]
  all_goals grind [writeCommands]

/-- What every sequence of commands keeps. -/
structure StepHistory.Ordered (runtimeRateLimitKey : String → Nat → Nat → String)
    (history : StepHistory) : Prop where
  valid : history.step.validate runtimeRateLimitKey = .ok ()
  latest : history.step = (history.accepted.map (·.step)).getLast?.getD history.origin
  effect : history.step.effect = history.origin.effect
  records : ∀ outcome ∈ history.accepted, outcome.step.validate runtimeRateLimitKey = .ok () ∧
    outcome.transition.validate = .ok () ∧ outcome.validate = .ok ()
  writing : history.step.effect = .write →
    ∀ expected ∈ writeCommands history.step.state, history.commands = expected
  entered : history.step.effect = .write → ∀ before outcome after,
    history.accepted = before ++ outcome :: after → outcome.transition.newState = .executing →
    before.map (·.transition.command) ++ [outcome.transition.command] =
      [.waitForApproval, .releaseApproval, .startReservedWrite]
  reading : history.step.effect = .read → ∀ outcome ∈ history.accepted,
    outcome.transition.command ≠ .waitForApproval ∧ outcome.transition.newState ≠ .awaitingApproval

namespace StepHistory

variable {runtimeRateLimitKey : String → Nat → Nat → String} {history : StepHistory}
  {input : StepTransitionInput}

theorem Ordered.planned {step : StepRecord} (valid : step.validate runtimeRateLimitKey = .ok ())
    (pending : step.state = .pending) : (StepHistory.planned step).Ordered runtimeRateLimitKey where
  valid
  latest := rfl
  effect := rfl
  records _ member := absurd member List.not_mem_nil
  writing _ expected known := by
    have empty : some [] = some expected := by
      simpa [StepHistory.planned, pending, writeCommands] using known
    exact Option.some.inj empty
  entered _ before outcome after split := by simp [StepHistory.planned] at split
  reading _ _ member := absurd member List.not_mem_nil

theorem Ordered.submit (ordered : history.Ordered runtimeRateLimitKey)
    (typed : input.context.validate = .ok ()) :
    (history.submit runtimeRateLimitKey input).Ordered runtimeRateLimitKey := by
  rcases StepRecord.transition_cases ordered.valid typed with ⟨reason, refused⟩ |
    ⟨newState, reasonCode, _, current, advance, accepted⟩
  · simpa only [StepHistory.submit, refused] using ordered
  · simp only [StepHistory.submit, accepted]
    have valid := StepRecord.advanced_valid ordered.valid current advance
    have extended : history.step.effect = .write → ∀ expected ∈ writeCommands newState,
        history.commands ++ [input.command] = expected :=
      fun writes => writeCommands_advance advance writes (ordered.writing writes)
    exact {
      valid
      latest := by simp
      effect := ordered.effect
      records := by
        intro outcome member
        rcases List.mem_append.mp member with before | last
        · exact ordered.records outcome before
        · obtain rfl := List.mem_singleton.mp last
          exact ⟨valid, StepRecord.advanced_transition_valid ordered.valid advance,
            StepRecord.advanced_outcome_valid ordered.valid advance⟩
      writing := by
        intro writes expected known
        simpa [StepHistory.commands, StepRecord.advanced] using extended writes expected known
      entered := by
        intro writes before outcome after split executing
        rcases List.eq_nil_or_concat after with rfl | ⟨earlier, last, rfl⟩
        · obtain ⟨rfl, newest⟩ := List.append_inj' split rfl
          obtain rfl := List.head_eq_of_cons_eq newest
          have now : newState = .executing := executing
          exact extended writes _ (by simp [now, writeCommands])
        · rw [List.concat_eq_append, ← List.cons_append, ← List.append_assoc] at split
          exact ordered.entered writes before outcome earlier
            (List.append_inj_left' split rfl) executing
      reading := by
        intro reads outcome member
        rcases List.mem_append.mp member with before | last
        · exact ordered.reading reads outcome before
        · obtain rfl := List.mem_singleton.mp last
          have reading : (history.step.advanced input newState reasonCode).step.effect = .read :=
            reads
          refine ⟨fun waiting => ?_, (StepRecord.read_unapproved valid reading).1⟩
          have writes := advance.writes
            (by simp [show input.command = .waitForApproval from waiting])
          exact absurd (writes.symm.trans reading) (by decide) }

theorem ordered_reachable (reached : (stepHistories runtimeRateLimitKey).Reachable history) :
    history.Ordered runtimeRateLimitKey := by
  refine Machine.Reachable.invariant (StepHistory.Ordered runtimeRateLimitKey) reached ?_ ?_
  · rintro _ ⟨step, valid, pending, rfl⟩
    exact .planned valid pending
  · rintro before input _ ordered ⟨typed, rfl⟩
    exact ordered.submit typed

theorem submit_terminal (terminal : history.step.state.terminal = true) :
    history.submit runtimeRateLimitKey input = history := by
  have refused : ∃ failure, history.step.transition runtimeRateLimitKey input = .error failure := by
    by_cases stale : input.occurredAt < history.step.updatedAt
    · exact ⟨_, if_pos stale⟩
    · exact ⟨_, by rw [StepRecord.transition, if_neg stale, if_pos terminal]⟩
  obtain ⟨failure, refused⟩ := refused
  simp only [StepHistory.submit, refused]

theorem run_terminal (terminal : history.step.state.terminal = true)
    (run : (stepHistories runtimeRateLimitKey).Run history later) : later = history := by
  induction run with
  | refl => rfl
  | tail input _ _ stepped ih =>
      obtain ⟨_, rfl⟩ := stepped
      rw [ih]
      exact submit_terminal terminal

theorem reachable_foldl (reached : (stepHistories runtimeRateLimitKey).Reachable history)
    {inputs : List StepTransitionInput}
    (typed : ∀ input ∈ inputs, input.context.validate = .ok ()) :
    (stepHistories runtimeRateLimitKey).Reachable
      (inputs.foldl (submit runtimeRateLimitKey) history) := by
  induction inputs generalizing history with
  | nil => exact reached
  | cons input rest ih =>
      have next : (stepHistories runtimeRateLimitKey).Reachable
        (history.submit runtimeRateLimitKey input) :=
        reached.next input ⟨typed input List.mem_cons_self, rfl⟩
      exact ih next fun later member => typed later (List.mem_cons_of_mem input member)

end StepHistory

/-- For every sequence of commands from a pending step: a writing step starts after it waited and
was released, a reading step never waits, ended steps stay as they are, and a command is refused
or yields records that pass their own checks. -/
theorem stepHistories_guaranteed {runtimeRateLimitKey : String → Nat → Nat → String}
    {history : StepHistory} (reached : (stepHistories runtimeRateLimitKey).Reachable history) :
    history.step = (history.accepted.map (·.step)).getLast?.getD history.origin ∧
    (history.step.effect = .write → ∀ before outcome after,
      history.accepted = before ++ outcome :: after →
      outcome.transition.newState = .executing →
      before.map (·.transition.command) ++ [outcome.transition.command] =
        [.waitForApproval, .releaseApproval, .startReservedWrite]) ∧
    (history.step.effect = .read → ∀ outcome ∈ history.accepted,
      outcome.transition.command ≠ .waitForApproval ∧
      outcome.transition.newState ≠ .awaitingApproval) ∧
    (history.step.state.terminal = true →
      ∀ later, (stepHistories runtimeRateLimitKey).Run history later → later = history) ∧
    ∀ input : StepTransitionInput, input.context.validate = .ok () →
      (∃ reason, history.step.transition runtimeRateLimitKey input = .error (.refused reason)) ∨
      ∃ outcome, history.step.transition runtimeRateLimitKey input = .ok outcome ∧
        outcome.step.validate runtimeRateLimitKey = .ok () ∧ outcome.transition.validate = .ok () ∧
        outcome.validate = .ok () := by
  have ordered := StepHistory.ordered_reachable reached
  refine ⟨ordered.latest, ordered.entered, ordered.reading,
    fun terminal _ => StepHistory.run_terminal terminal, ?_⟩
  intro input typed
  rcases StepRecord.transition_cases ordered.valid typed with refused |
    ⟨newState, reasonCode, _, current, advance, accepted⟩
  · exact .inl refused
  · exact .inr ⟨_, accepted, StepRecord.advanced_valid ordered.valid current advance,
      StepRecord.advanced_transition_valid ordered.valid advance,
      StepRecord.advanced_outcome_valid ordered.valid advance⟩

namespace StepHistory

def sealedDigest : String := String.ofList (List.replicate 64 'b')

def limitKey (templateId : String) (_ _ : Nat) : String := "rate:" ++ templateId

def pendingWrite : StepRecord where
  key := "send"
  effect := .write
  connectorFamily := "email"
  dependencyKeys := ["draft"]
  planHash := sealedDigest
  requestSchemaId := some "email.send.request"
  dataClassification := DataClassification.personal.value
  timeoutSeconds := some 30
  runtimePolicy := {
    operationKey := "send-1", attemptKind := .tool, maxAttempts := 1, backoff :=
      .none, stepSeconds := 30
    rateLimit := { key := "rate:template-1", maxCalls := 5, windowSeconds := 60 } }
  state := .pending
  updatedAt := 10
  version := 1
  terminalReasonCode := none
  id := "step-1"
  runId := "run-1"
  kind := "connector.write"
  selectedInstanceId := "instance-1"
  capabilityId := "cap.email.send"
  graphHash := sealedDigest
  ordinal := 2
  sourceOrder := 2
  templateId := "template-1"
  configurationRevision := 3
  routingSlotKey := none
  bindingId := some "binding-1"
  bindingConfigurationRevision := some 3
  resultSchemaId := some "email.send.result"
  resultSchemaHash := some ("schema-sha256-v1:" ++ sealedDigest)
  requestRedactionFields := ["/recipient"]
  resultRedactionFields := []
  idempotencySupport := "required"
  approvalPolicyId := "policy-1"
  approvalRequiredRoles := ["approver"]
  approvalRequiredScopes := ["actions.approve"]
  approvalExpiresAfterSeconds := some 3600
  approvalAllowSelfApproval := some false
  terminalResult := true
  createdAt := 10

def startingInputs : List StepTransitionInput :=
  [⟨.markReady, .none, 11⟩, ⟨.waitForApproval, .none, 11⟩, ⟨.startReservedWrite, .none, 12⟩,
    ⟨.releaseApproval, .none, 13⟩, ⟨.startReservedWrite, .none, 14⟩]

def startedHistory : StepHistory := startingInputs.foldl (submit limitKey) (.planned pendingWrite)

theorem startedHistory_reachable : (stepHistories limitKey).Reachable startedHistory :=
  reachable_foldl (.start ⟨pendingWrite, by decide +kernel, rfl, rfl⟩) (by decide +kernel)

theorem startedHistory_step : startedHistory.step.state = .executing ∧
    startedHistory.step.effect = .write := by
  decide +kernel

end StepHistory

theorem stepHistories_guaranteed_started :
    StepHistory.startedHistory.step.state = .executing ∧
      ∀ before outcome after, StepHistory.startedHistory.accepted = before ++ outcome :: after →
        outcome.transition.newState = .executing →
        before.map (·.transition.command) ++ [outcome.transition.command] =
          [.waitForApproval, .releaseApproval, .startReservedWrite] := by
  obtain ⟨state, writes⟩ := StepHistory.startedHistory_step
  exact ⟨state, (stepHistories_guaranteed StepHistory.startedHistory_reachable).2.1 writes⟩

end MarketingAgents
