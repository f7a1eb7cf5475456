import MarketingAgents.Library.Machine
import MarketingAgents.Persistence.ApprovalReading
import MarketingAgents.Persistence.AtMostOnce

namespace MarketingAgents

open Library

/-! # The runs of one approval aggregate

The approval writers in any order, with the delivery operations and the run and
step transitions that follow a release or a cancellation.
-/

/-- One committed operation on the approval aggregate of a run. -/
inductive LedgerOperation where
  | addInitialSet (requests : List (String × ActionApprovalRequest))
  | recordDecision (expectedVersion expectedActionVersion : Nat) (decision : ApprovalDecision)
  | markExpired (requestId : String) (expectedVersion expectedActionVersion : Nat)
      (expiredAt : Time)
  | renewExpired (expectedVersion expectedActionVersion : Nat) (old : StoredActionApprovalRequest)
      (replacementId : String) (replacement : ActionApprovalRequest)
  | releaseCurrentSet (command : AuthorizationSetReleaseCommand)
  | closeCurrentSet (command : AuthorizationSetCloseCommand)
  | deliver (actionId : String) (operation : DeliveryOperation)
  | advanceRun (expectedVersion : Nat) (expectedState : RunState) (result : RunTransitionResult)
  | advanceStep (expectedRunVersion : Nat) (expectedRunState : RunState) (expectedVersion : Nat)
      (expectedState : StepState) (result : StepTransitionResult)

/-- The step transition that a delivery operation applies. -/
def DeliveryOperation.stepTransition? : DeliveryOperation → Option StepTransitionResult
  | markCallStarted _ _ _ _ _ _ _ stepTransition => stepTransition
  | _ => none

/-- The operation works on this action alone, from a current read and with a
consistent step transition. -/
def DeliveryOperation.downstream (operation : DeliveryOperation) (db : Database) : Prop :=
  (∀ after, operation ≠ .elsewhere after) ∧
    (∀ snapshot, operation.snapshot? = some snapshot → snapshot = db) ∧
    ∀ result, operation.stepTransition? = some result → result.consistent

namespace ApprovalLedger

variable (canonical : CanonicalForms) (ledger after : ApprovalLedger)

def Applies : LedgerOperation → Prop
  | .addInitialSet requests => ledger.addInitialSetOrGet canonical requests = .ok after
  | .recordDecision expectedVersion expectedActionVersion decision =>
      ledger.recordDecision canonical expectedVersion expectedActionVersion decision = .ok after
  | .markExpired requestId expectedVersion expectedActionVersion expiredAt =>
      ledger.markExpired canonical requestId expectedVersion expectedActionVersion expiredAt =
        .ok after
  | .renewExpired expectedVersion expectedActionVersion old replacementId replacement =>
      ledger.renewExpired canonical expectedVersion expectedActionVersion old
        replacementId replacement = .ok after
  | .releaseCurrentSet command => ledger.releaseCurrentSet canonical command = .ok after
  | .closeCurrentSet command => ledger.closeCurrentSet canonical command = .ok after
  | .deliver actionId operation => operation.downstream ledger.database ∧
      ∃ rows, operation.apply actionId ledger.database = some rows ∧ after = { ledger with rows }
  | .advanceRun expectedVersion expectedState result => result.consistent ∧
      ∃ rows, ledger.rows.applyRunTransition expectedVersion expectedState result = some rows ∧
        after = { ledger with rows }
  | .advanceStep expectedRunVersion expectedRunState expectedVersion expectedState result =>
      result.consistent ∧ ∃ rows, ledger.rows.applyStepTransition expectedRunVersion
        expectedRunState
        expectedVersion expectedState result = some rows ∧ after = { ledger with rows }

/-- A planned run whose proposed actions have neither approvals nor deliveries. -/
structure Pristine : Prop where
  head : ledger.head = none
  sets : ledger.sets.entries = []
  requests : ledger.requests.entries = []
  decisions : ledger.decisions.entries = []
  uses : ledger.uses.entries = []
  actions : ∀ actionId stored, ledger.rows.action? actionId = some stored →
    stored.action.reservation = none ∧ stored.attempts = [] ∧ stored.action.deliveryAttemptCount = 0

/-- Accepted operations on the approvals of one run, in any order. -/
def approvalMachine : Machine ApprovalLedger LedgerOperation where
  initial := Pristine
  step ledger operation after := ledger.Applies canonical after operation

end ApprovalLedger

theorem ExternalAction.unreserved (action : ExternalAction)
    (waiting : action.state ∈ [.proposed, .awaitingApproval, .approved]) :
      action.reservation = none := by
  have checks := action.isValid
  cases held : action.reservation with
  | none => rfl
  | some reservation =>
      simp only [ExternalActionRow.valid, ExternalActionRow.reservationValid, held,
        Bool.and_eq_true, decide_eq_true_eq] at checks
      exact absurd waiting checks.1.1.1.2.2

/-- An action is unchanged, or it had no reservation and has the same attempts. -/
def StoredAction.Undelivered (stored updated : StoredAction) : Prop :=
  updated = stored ∨ stored.action.reservation = none ∧ updated.attempts = stored.attempts ∧
    updated.action.deliveryAttemptCount = stored.action.deliveryAttemptCount

namespace StoredAction.Undelivered

theorem refl (stored : StoredAction) : Undelivered stored stored := .inl rfl

theorem trans (left : Undelivered first second)
    (right : Undelivered second third) : Undelivered first third := by
  rcases left with rfl | ⟨free, attempts, count⟩
  · exact right
  · rcases right with rfl | ⟨_, attempts', count'⟩
    · exact .inr ⟨free, attempts, count⟩
    · exact .inr ⟨free, attempts'.trans attempts, count'.trans count⟩

end StoredAction.Undelivered

namespace ApprovalLedger

variable {canonical : CanonicalForms} {ledger before middle after : ApprovalLedger}

/-- Rows that were recorded are kept: sets that are no longer open, consumed
requests, decisions, uses and reservations stay as they are. -/
structure Retains (before after : ApprovalLedger) : Prop where
  head : ∀ head, before.head = some head → after.head = some head
  sets : ∀ setId set, before.sets.get? setId = some set →
    ∃ updated, after.sets.get? setId = some updated ∧ (set.status ≠ .open → updated = set)
  requests : ∀ requestId record, before.requests.get? requestId = some record →
    ∃ updated, after.requests.get? requestId = some updated ∧
      (record.status = .consumed → updated = record)
  decisions : ∀ requestId decision, before.decisions.get? requestId = some decision →
    after.decisions.get? requestId = some decision
  uses : ∀ useId use, before.uses.get? useId = some use → after.uses.get? useId = some use
  actions : ∀ actionId stored, before.rows.action? actionId = some stored →
    ∃ updated, after.rows.action? actionId = some updated ∧
      updated.action.contract = stored.action.contract ∧
      ∀ reservation, stored.action.reservation = some reservation →
        updated.action.reservation = some reservation

/-- Recorded rows are kept and no further action is reserved. -/
structure Unreserving (before after : ApprovalLedger) : Prop extends Retains before after where
  reserved : ∀ actionId updated reservation, after.rows.action? actionId = some updated →
    updated.action.reservation = some reservation →
    ∃ stored, before.rows.action? actionId = some stored ∧
      stored.action.reservation = some reservation

theorem Retains.refl (ledger : ApprovalLedger) : Retains ledger ledger where
  head := fun _ found => found
  sets := fun _ set found => ⟨set, found, fun _ => rfl⟩
  requests := fun _ record found => ⟨record, found, fun _ => rfl⟩
  decisions := fun _ _ found => found
  uses := fun _ _ found => found
  actions := fun _ stored found => ⟨stored, found, rfl, fun _ held => held⟩

theorem Retains.trans (left : Retains before middle) (right : Retains middle after) :
    Retains before after where
  head := fun head found => right.head head (left.head head found)
  sets := by
    intro setId set found
    obtain ⟨between, lookup, first⟩ := left.sets setId set found
    obtain ⟨updated, located, second⟩ := right.sets setId between lookup
    refine ⟨updated, located, fun closed => ?_⟩
    obtain rfl := first closed
    exact second closed
  requests := by
    intro requestId record found
    obtain ⟨between, lookup, first⟩ := left.requests requestId record found
    obtain ⟨updated, located, second⟩ := right.requests requestId between lookup
    refine ⟨updated, located, fun consumed => ?_⟩
    obtain rfl := first consumed
    exact second consumed
  decisions := fun requestId decision found => right.decisions requestId decision
    (left.decisions requestId decision found)
  uses := fun useId use found => right.uses useId use (left.uses useId use found)
  actions := by
    intro actionId stored found
    obtain ⟨between, lookup, same, first⟩ := left.actions actionId stored found
    obtain ⟨updated, located, again, second⟩ := right.actions actionId between lookup
    exact ⟨updated, located, again.trans same, fun reservation held => second _ (first _ held)⟩

theorem Unreserving.trans (left : Unreserving before middle) (right : Unreserving middle after) :
    Unreserving before after where
  toRetains := left.toRetains.trans right.toRetains
  reserved := by
    intro actionId updated reservation found held
    obtain ⟨between, lookup, again⟩ := right.reserved actionId updated reservation found held
    exact left.reserved actionId between reservation lookup again

/-- What the delivery of an action leaves as it was released. -/
def releasedAs (stored : StoredAction) : DeliveryContract × Option ActionReservationSnapshot :=
  (stored.action.contract, stored.action.reservation)

theorem Unreserving.of_rows {rows : Database}
    (kept : Table.Keeps releasedAs ledger.rows.actions rows.actions) :
    Unreserving ledger { ledger with rows } where
  toRetains := { Retains.refl ledger with
    actions := by
      intro actionId stored found
      obtain ⟨updated, lookup, same⟩ := kept.rows actionId stored found
      have parts := Prod.mk.inj same
      exact ⟨updated, lookup, parts.1, fun reservation held => parts.2.trans held⟩ }
  reserved := by
    intro actionId updated reservation found held
    obtain ⟨stored, lookup, same⟩ := kept.source found
    exact ⟨stored, lookup, (Prod.mk.inj same).2.symm.trans held⟩

/-- Nothing is delivered either: a row that changes belongs to an action without a reservation. -/
structure Undelivering (before after : ApprovalLedger) : Prop extends Unreserving before after where
  undelivered : Table.Related StoredAction.Undelivered before.rows.actions after.rows.actions

theorem Retains.undelivering (kept : Retains before after)
    (same : after.rows.actions = before.rows.actions) :
    Undelivering before after where
  toRetains := kept
  reserved := by
    intro actionId updated reservation found held
    rw [Database.action?, same] at found
    exact ⟨updated, found, held⟩
  undelivered := by
    rw [same]
    exact .refl StoredAction.Undelivered.refl _

theorem Undelivering.refl (ledger : ApprovalLedger) : Undelivering ledger ledger :=
  (Retains.refl ledger).undelivering rfl

theorem Undelivering.trans (left : Undelivering before middle) (right : Undelivering middle after) :
    Undelivering before after where
  toUnreserving := left.toUnreserving.trans right.toUnreserving
  undelivered := .trans StoredAction.Undelivered.trans left.undelivered right.undelivered

theorem Undelivering.of_actions {rows : Database} (same : rows.actions = ledger.rows.actions) :
    Undelivering ledger { ledger with rows } where
  toUnreserving := .of_rows (.of_eq same)
  undelivered := by
    show Table.Related StoredAction.Undelivered ledger.rows.actions rows.actions
    rw [same]
    exact .refl StoredAction.Undelivered.refl _

theorem insertRequest_effect (inserted : ledger.insertRequest requestId request = some after) :
    Undelivering ledger after ∧ ∃ requests, ledger.requests.insert? requestId (.created request) =
      some requests ∧ after = { ledger with requests } := by
  simp only [insertRequest, bind, Option.bind_eq_some_iff, Option.guard_eq_some', exists_const,
    Option.pure_def, Option.some.injEq] at inserted
  obtain ⟨_, requests, added, rfl⟩ := inserted
  have known := Table.get?_insert added
  refine ⟨Retains.undelivering { Retains.refl ledger with requests := ?_ } rfl,
    requests, added, rfl⟩
  intro other record found
  refine ⟨record, ?_, fun _ => rfl⟩
  have differs : other ≠ requestId := by
    rintro rfl
    cases known.1.symm.trans found
  rw [known.2, if_neg differs]
  exact found

theorem updateRequest_effect {requestId : String} {expectedVersion : Nat}
    {expectedStatus : ApprovalStatus} {target : ApprovalRequestRecord}
    (updated : ledger.updateRequest requestId expectedVersion expectedStatus target = some after)
    (live : expectedStatus ≠ .consumed) :
    Undelivering ledger after ∧
    after = { ledger with requests := ledger.requests.set requestId target } ∧
      ∃ record, ledger.requests.get? requestId = some record ∧ record.status = expectedStatus := by
  simp only [updateRequest, bind, Option.bind_eq_some_iff, Option.guard_eq_some', exists_const,
    Option.pure_def, Option.some.injEq] at updated
  obtain ⟨record, found, matched, rfl⟩ := updated
  refine ⟨Retains.undelivering { Retains.refl ledger with requests := ?_ } rfl, rfl, record, found,
    matched.2.1⟩
  intro other stored lookup
  rw [Table.get?_set found]
  by_cases same : other = requestId
  · subst same
    obtain rfl := Option.mem_unique found lookup
    exact ⟨target, if_pos rfl, fun consumed => absurd (matched.2.1.symm.trans consumed) live⟩
  · exact ⟨stored, by rw [if_neg same]; exact lookup, fun _ => rfl⟩

end ApprovalLedger

theorem Database.updateAction_effect {db updated : Database} {expectedVersion : Nat}
    {change : ExternalActionRow → ExternalActionRow}
    (stepped : db.updateAction actionId actionHash expectedVersion expectedState change =
      some updated) :
    ∃ stored action, db.action? actionId = some stored ∧
    stored.action.contract.actionHash = actionHash ∧
      stored.action.version = expectedVersion ∧ stored.action.state = expectedState ∧
      action.toExternalActionRow = change stored.action.toExternalActionRow ∧
      updated = db.storeAction actionId { stored with action } := by
  simp only [updateAction, bind, Option.bind_eq_some_iff, Option.guard_eq_some', exists_const,
    Option.pure_def, Option.some.injEq, ExternalAction.ofRow?_eq_some] at stepped
  obtain ⟨stored, found, ⟨hash, version, state⟩, action, row, rfl⟩ := stepped
  exact ⟨stored, action, found, hash, version, state, row, rfl⟩

namespace ApprovalLedger

variable {canonical : CanonicalForms} {ledger before middle after : ApprovalLedger}

theorem updateAction_undelivering {expectedVersion : Nat}
    {change : ExternalActionRow → ExternalActionRow}
    (updated : ledger.updateAction actionId actionHash expectedVersion expectedState change =
      some after)
    (waiting : expectedState ∈ [.proposed, .awaitingApproval, .approved])
    (keeps : ∀ row, (change row).contract = row.contract ∧
      (change row).reservation = row.reservation ∧
      (change row).deliveryAttemptCount = row.deliveryAttemptCount) :
    Undelivering ledger after := by
  simp only [updateAction, bind, Option.bind_eq_some_iff, Option.pure_def,
    Option.some.injEq] at updated
  obtain ⟨rows, stepped, rfl⟩ := updated
  obtain ⟨stored, action, found, _, _, state, row, rfl⟩ := Database.updateAction_effect stepped
  have same := keeps stored.action.toExternalActionRow
  rw [← row] at same
  refine { toUnreserving := .of_rows (.of_set found (Prod.ext same.1 same.2.1)), undelivered := ?_ }
  refine .of_set StoredAction.Undelivered.refl found (.inr ⟨?_, rfl, same.2.2⟩)
  exact stored.action.unreserved (by rw [state]; exact waiting)

theorem storeSet_effect {head : AuthorizationSetHead}
    (stored : ledger.storeSet head expected target = some after) :
    Undelivering ledger after ∧ ledger.head = some head ∧
      after.sets.get? head.currentSetId = some target ∧ after.rows = ledger.rows ∧
      after.requests = ledger.requests ∧ after.uses = ledger.uses := by
  simp only [storeSet, bind, Option.bind_eq_some_iff, Option.guard_eq_some', exists_const,
    Option.pure_def, Option.some.injEq] at stored
  obtain ⟨selected, current, found, matched, rfl⟩ := stored
  refine ⟨Retains.undelivering { Retains.refl ledger with sets := ?_ } rfl, selected,
    Table.get?_set_self found, rfl, rfl, rfl⟩
  intro setId set lookup
  rw [Table.get?_set found]
  by_cases same : setId = head.currentSetId
  · subst same
    obtain rfl := Option.mem_unique found lookup
    exact ⟨target, if_pos rfl, fun closed => absurd matched.2.2.1 closed⟩
  · exact ⟨set, by rw [if_neg same]; exact lookup, fun _ => rfl⟩

end ApprovalLedger

namespace Database

variable {db after : Database}

theorem applyRunTransition_actions {expectedVersion : Nat}
    (applied : db.applyRunTransition expectedVersion expectedState result = some after) :
    after.actions = db.actions := by
  simp only [applyRunTransition, bind, Option.bind_eq_some_iff, Option.guard_eq_some', exists_const,
    Option.pure_def, Option.some.injEq] at applied
  obtain ⟨_, _, rfl⟩ := applied
  rfl

end Database

namespace ApprovalLedger

variable {canonical : CanonicalForms} {ledger after : ApprovalLedger}

/-- The approval writers as one function. -/
def execute? (canonical : CanonicalForms) (ledger : ApprovalLedger) :
    LedgerOperation → Option ApprovalLedger
  | .addInitialSet requests => (ledger.addInitialSetOrGet canonical requests).toOption
  | .recordDecision expectedVersion expectedActionVersion decision =>
      (ledger.recordDecision canonical expectedVersion expectedActionVersion decision).toOption
  | .markExpired requestId expectedVersion expectedActionVersion expiredAt =>
      (ledger.markExpired canonical requestId expectedVersion expectedActionVersion
        expiredAt).toOption
  | .renewExpired expectedVersion expectedActionVersion old replacementId replacement =>
      (ledger.renewExpired canonical expectedVersion expectedActionVersion old replacementId
        replacement).toOption
  | .releaseCurrentSet command => (ledger.releaseCurrentSet canonical command).toOption
  | .closeCurrentSet command => (ledger.closeCurrentSet canonical command).toOption
  | _ => none

/-- Run operations that may read the ledger they apply to. -/
def run? (canonical : CanonicalForms) : List (ApprovalLedger → Option LedgerOperation) →
    ApprovalLedger →
    Option ApprovalLedger
  | [], ledger => some ledger
  | make :: rest, ledger => do
      let operation ← make ledger
      let after ← ledger.execute? canonical operation
      run? canonical rest after

theorem applies_of_execute? (executed : ledger.execute? canonical operation = some after) :
    ledger.Applies canonical after operation := by
  have accepted : ∀ outcome : Except Rejection ApprovalLedger, outcome.toOption = some after →
      outcome = .ok after := by
    intro outcome same
    cases outcome with
    | error rejection => cases same
    | ok value => exact congrArg Except.ok (Option.some.inj same)
  cases operation with
  | addInitialSet => exact accepted _ executed
  | recordDecision => exact accepted _ executed
  | markExpired => exact accepted _ executed
  | renewExpired => exact accepted _ executed
  | releaseCurrentSet => exact accepted _ executed
  | closeCurrentSet => exact accepted _ executed
  | deliver => cases executed
  | advanceRun => cases executed
  | advanceStep => cases executed

theorem run?_reachable {operations : List (ApprovalLedger → Option LedgerOperation)}
    (reached : (approvalMachine canonical).Reachable ledger)
    (ran : run? canonical operations ledger = some after) :
    (approvalMachine canonical).Reachable after := by
  induction operations generalizing ledger with
  | nil =>
      cases ran
      exact reached
  | cons make rest ih =>
      simp only [run?, bind, Option.bind_eq_some_iff] at ran
      obtain ⟨operation, _, middle, executed, remaining⟩ := ran
      exact ih (reached.next operation (applies_of_execute? executed)) remaining

end ApprovalLedger

end MarketingAgents
