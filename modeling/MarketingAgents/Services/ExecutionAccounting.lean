import MarketingAgents.Library.Machine
import MarketingAgents.Persistence.AtMostOnce
import MarketingAgents.Persistence.AttemptHistory
import MarketingAgents.Services.DispatchEffects

namespace MarketingAgents

open Library

/-! # Execution-control accounting

Workers run the operations of one execution control in any order.  A delivery
permit is only ever written together with the claim and the call marker it is
for, so a delivery is the dispatcher's transaction around it.
-/

/-- One transaction of some worker on the execution control of a run, or any
other change that touches neither the control nor what has been charged to it. -/
inductive AccountingOperation where
  | startExecution (expectedControlVersion : Nat) (startedAt : Time)
  | reserveAttempt (command : AttemptReservationCommand)
  | completeAttempt (command : AttemptCompletionCommand)
  | recoverExpiredAttempt (command : ExpiredAttemptRecoveryCommand)
  | reserveDeliveryCall (dispatcher : Dispatcher) (actionId leaseOwner : String) (claimedAt : Time)
  | requestCancel (expectedControlVersion : Nat) (actorDigest : String) (requestedAt : Time)
  | elsewhere (after : Database)

/-- The change leaves the control, the attempts and the started calls alone. -/
structure KeepsAccounts (db after : Database) : Prop where
  control : after.control = db.control
  operations : after.operations = db.operations
  actions : after.actions.keys = db.actions.keys
  called : ∀ actionId before now, db.action? actionId = some before →
    after.action? actionId = some now → now.called = before.called

namespace AccountingOperation

def Applies (db : Database) (operation : AccountingOperation) (after : Database) : Prop :=
  match operation with
  | startExecution expectedControlVersion startedAt =>
      db.startExecution expectedControlVersion startedAt = .ok after
  | reserveAttempt command => ∃ attempt, db.reserveAttempt command = .ok (attempt, after)
  | completeAttempt command => ∃ completion, db.completeAttempt command = .ok (completion, after)
  | recoverExpiredAttempt command =>
      ∃ completion, db.recoverExpiredAttempt command = .ok (completion, after)
  | reserveDeliveryCall dispatcher actionId leaseOwner claimedAt =>
      ∃ start, ExternalActionDispatcher.claimAndMarkCallStarted dispatcher db actionId leaseOwner
        claimedAt = .ok (start, after)
  | requestCancel expectedControlVersion actorDigest requestedAt =>
      db.requestCancel expectedControlVersion actorDigest requestedAt = .ok after
  | elsewhere other => KeepsAccounts db other ∧ after = other

end AccountingOperation

/-- The operations of a control that has just been created with its plan. -/
def accountingMachine : Machine Database AccountingOperation where
  initial db := (∃ control, db.control = some control ∧ control.modelCalls = 0 ∧
      control.toolCalls = 0 ∧ 0 < control.version) ∧
    (∀ stepId operation, db.operations.get? stepId = some operation → operation.attempts = []) ∧
    ∀ actionId stored, db.action? actionId = some stored → stored.attempts = []
  step := AccountingOperation.Applies

/-- An operation of a kind that has reserved at least one attempt. -/
def Operation.calledAs (kind : AttemptKind) (operation : Operation) : Bool :=
  operation.policy.kind = kind && !operation.attempts.isEmpty

/-- The attempts of one operation as they may be counted and read. -/
structure Operation.AttemptsAccounted (operation : Operation) : Prop where
  contiguous : operation.attempts.map (·.attemptNumber) = List.range' 1 operation.attempts.length
  withinLimit : operation.attempts.length ≤ operation.policy.maxAttempts
  oneOpen : (operation.attempts.filter (·.isOpen)).length ≤ 1
  onlyAfterTransientFailure :
    operation.attempts.Pairwise fun earlier _ => earlier.outcome = some .transientFailure

/-- The counters of a control are exactly the calls it has granted. -/
structure CallCounts (db : Database) (control : RunExecutionControl) : Prop where
  modelCalls : control.modelCalls = db.operations.count fun _ operation => operation.calledAs .model
  toolCalls : control.toolCalls = (db.operations.count fun _ operation =>
    operation.calledAs .tool) + db.actions.count fun _ stored => stored.called
  modelBudget : control.modelCalls ≤ control.maxModelCalls
  toolBudget : control.toolCalls ≤ control.maxToolCalls

structure ExecutionAccounting (db : Database) (control : RunExecutionControl) : Prop
    extends CallCounts db control where
  histories : ∀ stepId operation, db.operations.get? stepId = some operation →
    operation.AttemptHistory control.version
  positive : 0 < control.version

theorem Operation.AttemptHistory.accounted {operation : Operation} {controlVersion : Nat}
    (history : operation.AttemptHistory controlVersion) : operation.AttemptsAccounted where
  contiguous := history.numbered
  withinLimit := history.withinLimit
  oneOpen := history.open_at_most_once
  onlyAfterTransientFailure := history.superseded_failed

theorem Database.ReservedAttempt.first_iff {control : RunExecutionControl}
    (reserved : Database.ReservedAttempt command operation control window attempt)
    (numbered : operation.attempts.map (·.attemptNumber) =
      List.range' 1 operation.attempts.length) :
    attempt.attemptNumber = 1 ↔ operation.attempts = [] := by
  rcases reserved.follows with ⟨empty, number, _⟩ | ⟨previous, last, _, _, number⟩
  · exact ⟨fun _ => empty, fun _ => number⟩
  · have member := List.mem_of_getLast? last
    have listed : previous.attemptNumber ∈ operation.attempts.map (·.attemptNumber) :=
      List.mem_map_of_mem member
    rw [numbered, List.mem_range'_1] at listed
    constructor
    · omega
    · intro empty
      simp [empty] at last

namespace ExecutionAccounting

variable {db after : Database} {control later : RunExecutionControl}

theorem keep (accounting : ExecutionAccounting db control)
    (operations : after.operations = db.operations)
    (called : (after.actions.count fun _ stored => stored.called) =
      db.actions.count fun _ stored => stored.called)
    (row : later = { control with
      window := later.window
      cancelRequest := later.cancelRequest
      updatedAt := later.updatedAt
      version := later.version })
    (newer : control.version ≤ later.version) : ExecutionAccounting after later := by
  rw [row]
  exact {
    modelCalls := by rw [operations]; exact accounting.modelCalls
    toolCalls := by rw [operations, called]; exact accounting.toolCalls
    modelBudget := accounting.modelBudget
    toolBudget := accounting.toolBudget
    histories := by
      intro stepId operation found
      rw [operations] at found
      exact (accounting.histories stepId operation found).mono newer
    positive := Nat.lt_of_lt_of_le accounting.positive newer }

theorem start {expectedControlVersion : Nat} {startedAt : Time}
    (accounting : ExecutionAccounting db control) (stored : db.control = some control)
    (started : db.startExecution expectedControlVersion startedAt = .ok after) :
    ∃ later, after.control = some later ∧ ExecutionAccounting after later ∧
      (after = db ∨ control.version < later.version) := by
  obtain ⟨same, found, replay | ⟨_, _, _, _, _, rfl⟩⟩ := Database.startExecution_effect started
  · obtain ⟨_, _, _, rfl⟩ := replay
    exact ⟨control, stored, accounting, .inl rfl⟩
  · obtain rfl : control = same := Option.mem_unique stored found
    exact ⟨_, rfl, accounting.keep rfl rfl rfl (Nat.le_succ _), .inr (Nat.lt_succ_self _)⟩

theorem cancel {expectedControlVersion : Nat} {requestedAt : Time}
    (accounting : ExecutionAccounting db control) (stored : db.control = some control)
    (requested : db.requestCancel expectedControlVersion actorDigest requestedAt = .ok after) :
    ∃ later, after.control = some later ∧ ExecutionAccounting after later ∧
      (after = db ∨ control.version < later.version) := by
  obtain ⟨same, found, replay | ⟨_, _, _, rfl⟩⟩ := Database.requestCancel_effect requested
  · obtain ⟨_, _, _, rfl⟩ := replay
    exact ⟨control, stored, accounting, .inl rfl⟩
  · obtain rfl : control = same := Option.mem_unique stored found
    exact ⟨_, rfl, accounting.keep rfl rfl rfl (Nat.le_succ _), .inr (Nat.lt_succ_self _)⟩

/-- A reservation charges its operation when it is the first one. -/
theorem reserve {attempt : ExecutionAttempt}
    (accounting : ExecutionAccounting db control) (stored : db.control = some control)
    (reserved : db.reserveAttempt command = .ok (attempt, after)) :
    ∃ later, after.control = some later ∧ ExecutionAccounting after later ∧
      (after = db ∨ control.version < later.version) := by
  rcases Database.reserveAttempt_effect reserved with ⟨_, rfl⟩ | ⟨absent, reserved⟩
  · exact ⟨control, stored, accounting, .inl rfl⟩
  obtain ⟨same, window, step, operation, charged, rateWindows, found, _, _, _, _, _, _, _,
    operationFound, reservation, charge, rfl⟩ := Database.reserveNewAttempt_effect reserved
  obtain rfl : control = same := Option.mem_unique stored found
  obtain ⟨present, named⟩ := Database.operation?_eq_some.mp operationFound
  have history := accounting.histories _ _ present
  have first := reservation.first_iff history.numbered
  obtain ⟨rfl, modelBudget, toolBudget⟩ := Database.chargeLogicalCall_effect charge
  have counted : ∀ kind, (((db.operations.set command.stepId { operation with
        attempts := operation.attempts ++ [attempt] }).count fun _ operation =>
        operation.calledAs kind) =
      (db.operations.count fun _ operation => operation.calledAs kind) +
        if attempt.attemptNumber = 1 ∧ operation.policy.kind = kind then 1 else 0) := by
    intro kind
    have change := Table.count_set (fun _ operation => operation.calledAs kind)
      { operation with attempts := operation.attempts ++ [attempt] } present
    cases empty : operation.attempts <;> by_cases kinds : operation.policy.kind = kind <;>
      simp [Operation.calledAs, first, empty, kinds] at change ⊢ <;> omega
  refine ⟨_, rfl, ?_, .inr (Nat.lt_succ_self _)⟩
  exact {
    modelCalls := by
      rw [counted, ← accounting.modelCalls]
      simp
    toolCalls := by
      rw [counted, Nat.add_right_comm, ← accounting.toolCalls]
      simp
    modelBudget := modelBudget accounting.modelBudget
    toolBudget := toolBudget accounting.toolBudget
    histories := by
      intro stepId other lookup
      rw [Table.get?_set present] at lookup
      split at lookup
      · obtain rfl := Option.some.inj lookup
        exact history.reserve accounting.positive named.symm reservation
          (Database.attempt?_eq_none absent present)
      · exact (accounting.histories stepId other lookup).mono (Nat.le_succ _)
    positive := Nat.succ_pos _ }

/-- Closing the open attempt of an operation charges nothing. -/
theorem complete {completion : AttemptCompletion}
    (accounting : ExecutionAccounting db control) (stored : db.control = some control)
    (completed : db.completeAttempt command = .ok (completion, after)) :
    ∃ later, after.control = some later ∧ ExecutionAccounting after later ∧
      (after = db ∨ control.version < later.version) := by
  obtain ⟨stepId, attempt, same, window, located, found, _, ⟨_, rfl⟩ | ⟨isOpen, completed⟩⟩ :=
    Database.completeAttempt_effect completed
  · exact ⟨control, stored, accounting, .inl rfl⟩
  obtain rfl : control = same := Option.mem_unique stored found
  obtain ⟨operation, operationFound, _, _, _, completionIs, rfl⟩ :=
    Database.completeOpenAttempt_effect completed
  obtain ⟨present, _⟩ := Database.operation?_eq_some.mp operationFound
  obtain ⟨owner, ownerFound, member, identified⟩ := Database.attempt?_eq_some located
  obtain rfl : operation = owner := Option.mem_unique present ownerFound
  have counted :
    ∀ kind, ((db.operations.set stepId (operation.finish command.attemptId completion)).count
      fun _ operation => operation.calledAs kind) =
        db.operations.count fun _ operation => operation.calledAs kind := by
    intro kind
    have change := Table.count_set (fun _ operation => operation.calledAs kind)
      (operation.finish command.attemptId completion) present
    have unchanged : (operation.finish command.attemptId completion).calledAs kind =
        operation.calledAs kind := by
      unfold Operation.calledAs Operation.finish
      rw [List.isEmpty_map]
    rw [unchanged] at change
    exact Nat.add_right_cancel change
  refine ⟨_, rfl, ?_, .inr (Nat.lt_succ_self _)⟩
  exact {
    modelCalls := by rw [counted]; exact accounting.modelCalls
    toolCalls := by rw [counted]; exact accounting.toolCalls
    modelBudget := accounting.modelBudget
    toolBudget := accounting.toolBudget
    histories := by
      intro other found lookup
      rw [Table.get?_set present] at lookup
      split at lookup
      · obtain rfl := Option.some.inj lookup
        rw [← identified]
        refine ((accounting.histories stepId operation present).finish member isOpen ?_).mono
          (Nat.le_succ _)
        intro retry
        obtain ⟨retryNotBefore, allowed⟩ := Option.ne_none_iff_exists'.mp retry
        rw [completionIs] at allowed ⊢
        obtain ⟨failed, unended, _⟩ := Database.completionOf_retry allowed
        exact ⟨failed, unended⟩
      · exact (accounting.histories other found lookup).mono (Nat.le_succ _)
    positive := Nat.succ_pos _ }

theorem recover {completion : AttemptCompletion}
    (accounting : ExecutionAccounting db control) (stored : db.control = some control)
    (recovered : db.recoverExpiredAttempt command = .ok (completion, after)) :
    ∃ later, after.control = some later ∧ ExecutionAccounting after later ∧
      (after = db ∨ control.version < later.version) := by
  obtain ⟨_, _, _, _, _, _, _, _, ⟨_, rfl⟩ | ⟨_, _, completed⟩⟩ :=
    Database.recoverExpiredAttempt_effect recovered
  · exact ⟨control, stored, accounting, .inl rfl⟩
  · exact accounting.complete stored completed

theorem deliver {claimedAt : Time}
    {start : DispatchCallStart} (accounting : ExecutionAccounting db control)
    (stored : db.control = some control)
    (dispatched : ExternalActionDispatcher.claimAndMarkCallStarted dispatcher db actionId leaseOwner
      claimedAt = .ok (start, after)) :
    ∃ later, after.control = some later ∧ ExecutionAccounting after later ∧
      (after = db ∨ control.version < later.version) := by
  rcases ExternalActionDispatcher.claimAndMarkCallStarted_effect dispatched with
    rfl | ⟨action, authority, found, _, started⟩
  · exact ⟨control, stored, accounting, .inl rfl⟩
  obtain ⟨same, window, charged, updated, steps, stepTransitions, rateWindows, audits,
    controlFound, _, _, _,
    call, _, charge, rfl⟩ := ExternalActionDispatcher.startAdmitted_effect found started
  obtain rfl : control = same := Option.mem_unique stored controlFound
  obtain ⟨rfl, modelBudget, toolBudget⟩ := Database.chargeLogicalCall_effect charge
  have counted := Table.count_set (fun _ stored => stored.called) updated found
  refine ⟨_, rfl, ?_, .inr (Nat.lt_succ_self _)⟩
  exact {
    modelCalls := by simpa using accounting.modelCalls
    toolCalls := by
      have before := accounting.toolCalls
      simp only [call.called, if_true] at counted
      cases earlier : action.called <;> simp [earlier] at counted ⊢ <;> omega
    modelBudget := modelBudget accounting.modelBudget
    toolBudget := toolBudget accounting.toolBudget
    histories := fun stepId operation lookup =>
      (accounting.histories stepId operation lookup).mono (Nat.le_succ _)
    positive := Nat.succ_pos _ }

theorem elsewhere (accounting : ExecutionAccounting db control) (kept : KeepsAccounts db after) :
    ExecutionAccounting after control :=
  accounting.keep kept.operations
    (Table.count_congr kept.actions fun actionId now before lookup earlier =>
      kept.called actionId before now earlier lookup) rfl (Nat.le_refl _)

theorem step (accounting : ExecutionAccounting db control)
    (stored : db.control = some control) (stepped : accountingMachine.step db operation after) :
    ∃ later, after.control = some later ∧ ExecutionAccounting after later ∧
      (KeepsAccounts db after ∨ control.version < later.version) := by
  have kept : KeepsAccounts db db := ⟨rfl, rfl, rfl, fun _ _ _ before now => by
    rw [Option.mem_unique before now]⟩
  have written : (∃ later, after.control = some later ∧ ExecutionAccounting after later ∧
      (after = db ∨ control.version < later.version)) → ∃ later, after.control = some later ∧
      ExecutionAccounting after later ∧
          (KeepsAccounts db after ∨ control.version < later.version) := by
    rintro ⟨later, found, accounted, rfl | newer⟩
    · exact ⟨later, found, accounted, .inl kept⟩
    · exact ⟨later, found, accounted, .inr newer⟩
  cases operation with
  | startExecution => exact written (accounting.start stored stepped)
  | reserveAttempt =>
      obtain ⟨_, reserved⟩ := stepped
      exact written (accounting.reserve stored reserved)
  | completeAttempt =>
      obtain ⟨_, completed⟩ := stepped
      exact written (accounting.complete stored completed)
  | recoverExpiredAttempt =>
      obtain ⟨_, recovered⟩ := stepped
      exact written (accounting.recover stored recovered)
  | reserveDeliveryCall =>
      obtain ⟨_, dispatched⟩ := stepped
      exact written (accounting.deliver stored dispatched)
  | requestCancel => exact written (accounting.cancel stored stepped)
  | elsewhere =>
      obtain ⟨keeps, rfl⟩ := stepped
      exact ⟨control, keeps.control.trans stored, accounting.elsewhere keeps, .inl keeps⟩

theorem reachable (reached : accountingMachine.Reachable db) :
    ∃ control, db.control = some control ∧ ExecutionAccounting db control := by
  refine reached.invariant (fun db => ∃ control, db.control = some control ∧
    ExecutionAccounting db control) ?_ ?_
  · rintro db ⟨⟨control, stored, modelCalls, toolCalls, positive⟩, unattempted, uncalled⟩
    have noOperation : ∀ kind, (db.operations.count fun _ operation => operation.calledAs kind) =
        0 := by
      intro kind
      rw [Table.count, List.countP_eq_zero]
      intro entry member
      simp [Operation.calledAs, unattempted entry.1 entry.2 (Table.get?_eq_some_iff.mpr member)]
    have noAction : (db.actions.count fun _ stored => stored.called) = 0 := by
      rw [Table.count, List.countP_eq_zero]
      intro entry member
      simp [StoredAction.called, uncalled entry.1 entry.2 (Table.get?_eq_some_iff.mpr member)]
    exact ⟨control, stored, {
      modelCalls := by rw [modelCalls, noOperation]
      toolCalls := by rw [toolCalls, noOperation, noAction]
      modelBudget := by simp [modelCalls]
      toolBudget := by simp [toolCalls]
      histories := fun stepId operation found => .empty (unattempted stepId operation found)
      positive }⟩
  · rintro db operation after ⟨control, stored, accounting⟩ stepped
    obtain ⟨later, found, accounted, _⟩ := accounting.step stored stepped
    exact ⟨later, found, accounted⟩

end ExecutionAccounting

/-- In every state that any interleaving reaches the counters are exact and
within their budgets, the attempts of every operation are well formed, and an
accepted write counts the control version up. -/
theorem execution_accounting {db : Database} (reached : accountingMachine.Reachable db) :
    ∃ control, db.control = some control ∧ CallCounts db control ∧
      (∀ stepId operation, db.operations.get? stepId = some operation →
        operation.AttemptsAccounted) ∧
      ∀ operation after, accountingMachine.step db operation after →
        ∃ later, after.control = some later ∧
          (KeepsAccounts db after ∨ control.version < later.version) := by
  obtain ⟨control, stored, accounting⟩ := ExecutionAccounting.reachable reached
  refine ⟨control, stored, accounting.toCallCounts, ?_, ?_⟩
  · intro stepId operation found
    exact (accounting.histories stepId operation found).accounted
  · intro operation after stepped
    obtain ⟨later, found, _, written⟩ := accounting.step stored stepped
    exact ⟨later, found, written⟩

namespace ApprovedWrite

def dispatcher : Dispatcher where
  leaseDuration := seconds 10
  authorize _ _ := .ok ()
  contractFor _ := .ok ()
  inputWithinBudget _ _ := .ok ()
  projectOutput metadata _ := metadata

/-- The run after its only write was called for the first time. -/
def delivering : Option Database :=
  (ExternalActionDispatcher.claimAndMarkCallStarted dispatcher
    (database .required) "action" "worker" 10).toOption.map Prod.snd

theorem delivering_charged : (delivering.bind (·.control)).map (·.toolCalls) = some 1 := by decide

theorem execution_accounting_of_delivery :
    ∃ db control, delivering = some db ∧ db.control = some control ∧ CallCounts db control ∧
      control.toolCalls = 1 := by
  have charged := delivering_charged
  simp only [Option.map_eq_some_iff, Option.bind_eq_some_iff] at charged
  obtain ⟨control, ⟨db, delivered, stored⟩, once⟩ := charged
  have reached : accountingMachine.Reachable (database .required) :=
    .start ⟨⟨_, rfl, rfl, rfl, by decide⟩, by simp [database], by
      intro actionId stored found
      simp only [database, Database.action?, Table.get?_eq_some_iff, List.mem_singleton,
        Prod.mk.injEq] at found
      rw [found.2]⟩
  have dispatched : accountingMachine.step (database .required)
      (.reserveDeliveryCall dispatcher "action" "worker" 10) db := by
    simp only [delivering, Option.map_eq_some_iff] at delivered
    obtain ⟨⟨start, after⟩, accepted, rfl⟩ := delivered
    cases outcome : ExternalActionDispatcher.claimAndMarkCallStarted dispatcher (database .required)
        "action" "worker" 10 with
    | error reason => simp [outcome, Except.toOption] at accepted
    | ok pair =>
        simp only [outcome, Except.toOption, Option.some.injEq] at accepted
        exact ⟨start, by rw [← accepted]; exact outcome⟩
  obtain ⟨same, found, counts, _⟩ := execution_accounting (reached.next _ dispatched)
  obtain rfl : control = same := Option.mem_unique stored found
  exact ⟨db, control, delivered, stored, counts, once⟩

/-- The released write once a worker claimed its action. -/
def claimedWrite : Option Database :=
  (database .required).claimReserved ((database .required).action? "action") "action" 4 authority
    "worker" 10 (10 + seconds 10)

/-- The repository's reservation for the claimed attempt, apart from the dispatcher around it. -/
def deliveryReservation (expectedControlVersion : Nat) : DeliveryCallReservationCommand where
  stepId := "step"
  actionId := "action"
  deliveryAttemptNumber := 1
  expectedControlVersion
  expectedStepVersion := 3
  expectedActionVersion := 5
  reservedAt := 10

/-- The bare reservation, repeated for one claimed attempt, charges its action twice. -/
theorem deliveryCall_reserved_twice :
    ∃ claimed first once second twice control, claimedWrite = some claimed ∧
      claimed.reserveDeliveryCall (deliveryReservation 2) = .ok (first, once) ∧
      once.reserveDeliveryCall (deliveryReservation 3) = .ok (second, twice) ∧
      twice.operations.keys = [] ∧ twice.actions.keys = ["action"] ∧
      twice.control = some control ∧ control.toolCalls = 2 := by
  have charged : claimedWrite.any (fun claimed =>
      (claimed.reserveDeliveryCall (deliveryReservation 2)).toOption.any fun first =>
        (first.2.reserveDeliveryCall (deliveryReservation 3)).toOption.any fun second =>
          second.2.operations.keys = [] && second.2.actions.keys = ["action"] &&
            second.2.control.any fun control => control.toolCalls = 2) = true := by decide +kernel
  obtain ⟨claimed, locked, charged⟩ := (Option.any_eq_true _ _).mp charged
  obtain ⟨⟨first, once⟩, permitted, charged⟩ := (Option.any_eq_true _ _).mp charged
  obtain ⟨⟨second, twice⟩, repeated, charged⟩ := (Option.any_eq_true _ _).mp charged
  simp only [Bool.and_eq_true, decide_eq_true_eq, Option.any_eq_true] at charged
  obtain ⟨⟨unattempted, single⟩, control, stored, calls⟩ := charged
  exact ⟨claimed, first, once, second, twice, control, locked, ok_of_toOption permitted,
    ok_of_toOption repeated, unattempted, single, stored, calls⟩

end ApprovedWrite

end MarketingAgents
