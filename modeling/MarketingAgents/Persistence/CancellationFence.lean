import MarketingAgents.Library.Machine
import MarketingAgents.Persistence.AtMostOnce
import MarketingAgents.Persistence.ExecutionControlEffects

namespace MarketingAgents

open Library

/-! # The cancellation fence of an execution control

Workers reserve calls and an operator cancels, in any order.  The machine
keeps every call window that was granted next to the rows of the run.
-/

/-- The time in which a granted call may run. -/
structure CallWindow where
  reservedAt : Time
  callDeadlineAt : Time
deriving DecidableEq

/-- The rows of a run and the call windows its execution control has granted. -/
structure FencedRun where
  db : Database
  granted : List CallWindow
deriving DecidableEq

/-- One operation of some worker or operator on the execution control of a run,
or any change of rows that the control does not own. -/
inductive FenceOperation where
  | startExecution (expectedControlVersion : Nat) (startedAt : Time)
  | reserveAttempt (command : AttemptReservationCommand)
  | reserveDeliveryCall (command : DeliveryCallReservationCommand)
  | completeAttempt (command : AttemptCompletionCommand)
  | recoverExpiredAttempt (command : ExpiredAttemptRecoveryCommand)
  | requestCancel (expectedControlVersion : Nat) (actorDigest : String) (requestedAt : Time)
  | elsewhere (after : Database)

namespace FenceOperation

def Applies (run : FencedRun) (operation : FenceOperation) (after : FencedRun) : Prop :=
  match operation with
  | startExecution expectedControlVersion startedAt =>
      run.db.startExecution expectedControlVersion startedAt = .ok after.db ∧
        after.granted = run.granted
  | reserveAttempt command => ∃ attempt, run.db.reserveAttempt command = .ok (attempt, after.db) ∧
      -- a reservation that is only repeated grants no second window
      after.granted = if (run.db.attempt? command.attemptId).isSome then run.granted
        else run.granted ++ [⟨attempt.reservedAt, attempt.callDeadlineAt⟩]
  | reserveDeliveryCall command =>
      ∃ permit, run.db.reserveDeliveryCall command = .ok (permit, after.db) ∧
      after.granted = run.granted ++ [⟨command.reservedAt, permit.callDeadlineAt⟩]
  | completeAttempt command =>
      ∃ completion, run.db.completeAttempt command = .ok (completion, after.db) ∧
      after.granted = run.granted
  | recoverExpiredAttempt command =>
      ∃ completion, run.db.recoverExpiredAttempt command = .ok (completion, after.db) ∧
        after.granted = run.granted
  | requestCancel expectedControlVersion actorDigest requestedAt =>
      run.db.requestCancel expectedControlVersion actorDigest requestedAt = .ok after.db ∧
        after.granted = run.granted
  | elsewhere other => other.control = run.db.control ∧ other.operations = run.db.operations ∧
      after = { run with db := other }

/-- The stored rows already answer the operation. -/
def Replays (run : FencedRun) : FenceOperation → Prop
  | startExecution _ startedAt => ∃ control window, run.db.control = some control ∧
      control.window = some window ∧ window.startedAt = startedAt
  | reserveAttempt command =>
    ∃ attempt, run.db.attempt? command.attemptId = some (command.stepId, attempt)
  | _ => False

/-- The operations that a cancellation has to keep out. -/
def begins : FenceOperation → Bool
  | startExecution .. | reserveAttempt _ | reserveDeliveryCall _ => true
  | _ => false

end FenceOperation

def fenceMachine : Machine FencedRun FenceOperation where
  initial run := run.granted = []
  step := FenceOperation.Applies

namespace Database

variable {db after : Database}

theorem reserveNewAttempt_positive {attempt : ExecutionAttempt}
    (reserved : db.reserveNewAttempt command = .ok (attempt, after)) :
    attempt.reservedAt < attempt.callDeadlineAt := by
  simp only [reserveNewAttempt, bind_ok, require_ok, requireSome_ok, pure_ok, Prod.exists,
    Prod.mk.injEq] at reserved
  obtain ⟨_, _, _, _, _, _, _, _, _, _, _, _, _, _, _, _, _, _, _, _, _, _, _, positive, _, _, rfl,
    _⟩ := reserved
  exact positive

theorem reserveDeliveryCall_window {permit : DeliveryCallPermit}
    (reserved : db.reserveDeliveryCall command = .ok (permit, after)) :
    ∃ control window, db.control = some control ∧ control.window = some window ∧
      command.reservedAt < permit.callDeadlineAt ∧ permit.callDeadlineAt ≤ window.deadlineAt := by
  simp only [reserveDeliveryCall, bind_ok, require_ok, requireSome_ok, pure_ok, Prod.exists,
    Prod.mk.injEq] at reserved
  obtain ⟨control, window, active, _, _, _, _, _, _, _, _, _, _, _, _, _, _, _, positive, rfl, _⟩ :=
    reserved
  obtain ⟨stored, opened, _⟩ := activeControl_effect active
  exact ⟨control, window, stored, opened, positive, Nat.min_le_right _ _⟩

end Database

namespace FencedRun

variable {run after later : FencedRun} {operation : FenceOperation}

/-- Every granted window lies between its reservation and the deadline of the run. -/
def WindowsInside (run : FencedRun) : Prop :=
  ∀ granted ∈ run.granted, ∃ control window, run.db.control = some control ∧
    control.window = some window ∧ granted.reservedAt < granted.callDeadlineAt ∧
    granted.callDeadlineAt ≤ window.deadlineAt

theorem WindowsInside.keep (inside : run.WindowsInside) (granted : after.granted = run.granted)
    (control : ∀ before window, run.db.control = some before → before.window = some window →
      ∃ later, after.db.control = some later ∧ later.window = some window) :
        after.WindowsInside := by
  intro call member
  rw [granted] at member
  obtain ⟨before, window, stored, opened, positive, within⟩ := inside call member
  obtain ⟨later, kept, same⟩ := control before window stored opened
  exact ⟨later, window, kept, same, positive, within⟩

theorem WindowsInside.grant (inside : run.WindowsInside)
    {call : CallWindow} (granted : after.granted = run.granted ++ [call])
    (stored : run.db.control = some before) (opened : before.window = some window)
    (positive : call.reservedAt < call.callDeadlineAt)
    (within : call.callDeadlineAt ≤ window.deadlineAt)
    (kept : ∃ later, after.db.control = some later ∧ later.window = some window) :
    after.WindowsInside := by
  obtain ⟨later, stores, same⟩ := kept
  intro other member
  rw [granted, List.mem_append, List.mem_singleton] at member
  rcases member with old | rfl
  · obtain ⟨control, found, lookup, deadline, order⟩ := inside other old
    obtain rfl : control = before := Option.mem_unique lookup stored
    obtain rfl : found = window := Option.mem_unique deadline opened
    exact ⟨later, found, stores, same, order⟩
  · exact ⟨later, window, stores, same, positive, within⟩

theorem completeAttempt_control {db completed : Database} {completion : AttemptCompletion}
    (accepted : db.completeAttempt command = .ok (completion, completed)) :
    ∃ before control, db.control = some before ∧ completed.control = some control ∧
      control.window = before.window ∧ control.cancelRequest = before.cancelRequest ∧
      control.modelCalls = before.modelCalls ∧ control.toolCalls = before.toolCalls := by
  obtain ⟨_, _, before, _, _, stored, _, ⟨_, rfl⟩ | ⟨_, accepted⟩⟩ :=
    Database.completeAttempt_effect accepted
  · exact ⟨before, before, stored, stored, rfl, rfl, rfl, rfl⟩
  · obtain ⟨_, _, _, _, _, _, rfl⟩ := Database.completeOpenAttempt_effect accepted
    exact ⟨before, _, stored, rfl, rfl, rfl, rfl, rfl⟩

theorem recoverExpiredAttempt_control {db recovered : Database} {completion : AttemptCompletion}
    (accepted : db.recoverExpiredAttempt command = .ok (completion, recovered)) :
    ∃ before control, db.control = some before ∧ recovered.control = some control ∧
      control.window = before.window ∧ control.cancelRequest = before.cancelRequest ∧
      control.modelCalls = before.modelCalls ∧ control.toolCalls = before.toolCalls := by
  obtain ⟨_, _, before, _, _, stored, _, _, ⟨_, rfl⟩ | ⟨_, _, accepted⟩⟩ :=
    Database.recoverExpiredAttempt_effect accepted
  · exact ⟨before, before, stored, stored, rfl, rfl, rfl, rfl⟩
  · exact completeAttempt_control accepted

/-- Every operation keeps the granted windows inside the deadline. -/
theorem WindowsInside.step (inside : run.WindowsInside)
    (stepped : fenceMachine.step run operation after) :
    after.WindowsInside := by
  cases operation with
  | startExecution =>
      obtain ⟨accepted, granted⟩ := stepped
      obtain ⟨before, stored, ⟨window, opened, _, same⟩ | ⟨unopened, _⟩⟩ :=
        Database.startExecution_effect accepted
      · refine inside.keep granted fun control window stored opened => ⟨control, ?_, opened⟩
        rw [same, stored]
      · refine inside.keep granted fun control window found opened => ?_
        obtain rfl : control = before := Option.mem_unique found stored
        rw [unopened] at opened
        cases opened
  | reserveAttempt command =>
      obtain ⟨attempt, accepted, granted⟩ := stepped
      rcases Database.reserveAttempt_effect accepted with ⟨located, same⟩ | ⟨absent, reserved⟩
      · refine inside.keep (by simpa [located] using granted) fun control window stored opened =>
          ⟨control, ?_, opened⟩
        rw [same, stored]
      · have positive := Database.reserveNewAttempt_positive reserved
        obtain ⟨control, window, _, operation, charged, _, stored, opened, _, _, _, _, _, _, _,
          attempted, charge, same⟩ := Database.reserveNewAttempt_effect reserved
        obtain ⟨charged, _, _⟩ := Database.chargeLogicalCall_effect charge
        refine inside.grant (by simpa [absent] using granted) stored opened positive ?_ ?_
        · simp only [attempted.callDeadlineAt]
          exact Nat.min_le_right _ _
        · rw [same, charged]
          exact ⟨_, rfl, opened⟩
  | reserveDeliveryCall command =>
      obtain ⟨permit, accepted, granted⟩ := stepped
      obtain ⟨control, window, stored, opened, positive, within⟩ :=
        Database.reserveDeliveryCall_window accepted
      obtain ⟨again, _, _, _, charged, _, found, _, _, _, _, _, _, _, _, _, charge, same⟩ :=
        Database.reserveDeliveryCall_effect accepted
      obtain rfl : control = again := Option.mem_unique stored found
      obtain ⟨charged, _, _⟩ := Database.chargeLogicalCall_effect charge
      refine inside.grant granted stored opened positive within ?_
      rw [same, charged]
      exact ⟨_, rfl, opened⟩
  | completeAttempt =>
      obtain ⟨_, accepted, granted⟩ := stepped
      obtain ⟨before, control, stored, completed, window, _⟩ := completeAttempt_control accepted
      refine inside.keep granted fun same opened found lookup => ⟨control, completed, ?_⟩
      obtain rfl : same = before := Option.mem_unique found stored
      exact window.trans lookup
  | recoverExpiredAttempt =>
      obtain ⟨_, accepted, granted⟩ := stepped
      obtain ⟨before, control, stored, recovered, window, _⟩ :=
        recoverExpiredAttempt_control accepted
      refine inside.keep granted fun same opened found lookup => ⟨control, recovered, ?_⟩
      obtain rfl : same = before := Option.mem_unique found stored
      exact window.trans lookup
  | requestCancel =>
      obtain ⟨accepted, granted⟩ := stepped
      obtain ⟨before, stored, ⟨_, _, _, same⟩ | ⟨_, _, _, same⟩⟩ :=
        Database.requestCancel_effect accepted
      · refine inside.keep granted fun control window found opened => ⟨control, ?_, opened⟩
        rw [same, found]
      · refine inside.keep granted fun control window found opened => ?_
        obtain rfl : control = before := Option.mem_unique found stored
        rw [same]
        exact ⟨_, rfl, opened⟩
  | elsewhere other =>
      obtain ⟨control, _, rfl⟩ := stepped
      refine inside.keep rfl fun before window stored opened => ⟨before, ?_, opened⟩
      exact control.trans stored

/-- The control is fenced, with its counters as they were then. -/
structure Fenced (run : FencedRun) (modelCalls toolCalls : Nat)
    (granted : List CallWindow) : Prop where
  control : ∃ control, run.db.control = some control ∧ control.cancelRequest ≠ none ∧
    control.modelCalls = modelCalls ∧ control.toolCalls = toolCalls
  granted : run.granted = granted

variable {modelCalls toolCalls : Nat} {granted : List CallWindow}

theorem Fenced.begins (fenced : run.Fenced modelCalls toolCalls granted) (begins : operation.begins)
    (stepped : fenceMachine.step run operation after) : operation.Replays run ∧ after = run := by
  obtain ⟨control, stored, cancelled, _, _⟩ := fenced.control
  have absurdity : ∀ {other : RunExecutionControl}, run.db.control = some other →
      other.cancelRequest ≠ none := by
    intro other found
    obtain rfl : control = other := Option.mem_unique stored found
    exact cancelled
  cases operation with
  | startExecution =>
      obtain ⟨accepted, granted⟩ := stepped
      obtain ⟨other, found, ⟨window, opened, instant, same⟩ | ⟨_, uncancelled, _⟩⟩ :=
        Database.startExecution_effect accepted
      · refine ⟨⟨other, window, found, opened, instant⟩, ?_⟩
        cases after
        simp_all
      · exact absurd uncancelled (absurdity found)
  | reserveAttempt command =>
      obtain ⟨attempt, accepted, granted⟩ := stepped
      rcases Database.reserveAttempt_effect accepted with ⟨located, same⟩ | ⟨_, reserved⟩
      · refine ⟨⟨attempt, located⟩, ?_⟩
        cases after
        simp_all
      · obtain ⟨_, _, _, _, _, _, found, _, uncancelled, _⟩ :=
          Database.reserveNewAttempt_effect reserved
        exact absurd uncancelled (absurdity found)
  | reserveDeliveryCall =>
      obtain ⟨permit, accepted, granted⟩ := stepped
      obtain ⟨_, _, _, _, _, _, found, _, uncancelled, _⟩ :=
        Database.reserveDeliveryCall_effect accepted
      exact absurd uncancelled (absurdity found)
  | _ => cases begins

theorem Fenced.step (fenced : run.Fenced modelCalls toolCalls granted)
    (stepped : fenceMachine.step run operation after) :
      after.Fenced modelCalls toolCalls granted := by
  cases begins : operation.begins with
  | true =>
      obtain ⟨_, rfl⟩ := fenced.begins begins stepped
      exact fenced
  | false =>
      obtain ⟨control, stored, cancelled, models, tools⟩ := fenced.control
      cases operation with
      | startExecution | reserveAttempt | reserveDeliveryCall => cases begins
      | completeAttempt =>
          obtain ⟨_, accepted, same⟩ := stepped
          obtain ⟨before, later, found, completed, _, request, model, tool⟩ :=
            completeAttempt_control accepted
          obtain rfl : control = before := Option.mem_unique stored found
          exact ⟨⟨later, completed, request ▸ cancelled, model.trans models, tool.trans tools⟩,
            same.trans fenced.granted⟩
      | recoverExpiredAttempt =>
          obtain ⟨_, accepted, same⟩ := stepped
          obtain ⟨before, later, found, recovered, _, request, model, tool⟩ :=
            recoverExpiredAttempt_control accepted
          obtain rfl : control = before := Option.mem_unique stored found
          exact ⟨⟨later, recovered, request ▸ cancelled, model.trans models, tool.trans tools⟩,
            same.trans fenced.granted⟩
      | requestCancel =>
          obtain ⟨accepted, same⟩ := stepped
          obtain ⟨before, found, ⟨_, _, _, unchanged⟩ | ⟨uncancelled, _⟩⟩ :=
            Database.requestCancel_effect accepted
          · exact ⟨⟨control, by rw [unchanged, stored], cancelled, models, tools⟩,
              same.trans fenced.granted⟩
          · obtain rfl : control = before := Option.mem_unique stored found
            exact absurd uncancelled cancelled
      | elsewhere =>
          obtain ⟨kept, _, rfl⟩ := stepped
          exact ⟨⟨control, kept.trans stored, cancelled, models, tools⟩, fenced.granted⟩

theorem Fenced.continues (fenced : run.Fenced modelCalls toolCalls granted)
    (steps : fenceMachine.Run run later) :
    later.Fenced modelCalls toolCalls granted :=
  steps.preserves (fun state => state.Fenced modelCalls toolCalls granted) fenced
    fun holds _ stepped => holds.step stepped

theorem fenced_of_cancel {expectedControlVersion : Nat} {requestedAt : Time}
    (requested : fenceMachine.step before
      (.requestCancel expectedControlVersion actorDigest requestedAt) run) :
    ∃ control, run.db.control = some control ∧
      run.Fenced control.modelCalls control.toolCalls run.granted := by
  obtain ⟨accepted, _⟩ := requested
  obtain ⟨control, stored, ⟨request, cancelled, _, same⟩ | ⟨_, _, _, same⟩⟩ :=
    Database.requestCancel_effect accepted
  · have kept : run.db.control = some control := by rw [same, stored]
    exact ⟨control, kept, ⟨control, kept, by simp [cancelled], rfl, rfl⟩, rfl⟩
  · exact ⟨_, congrArg Database.control same,
      ⟨_, congrArg Database.control same, by simp, rfl, rfl⟩, rfl⟩

end FencedRun

/-- Once a cancellation has been accepted no start and no reservation is
accepted but as an exact replay that changes nothing, the counters stay as they
are, and every window that was granted lies inside the deadline of the run. -/
theorem cancellation_fences_calls {before cancelled later : FencedRun}
    {expectedControlVersion : Nat}
    {actorDigest : String} {requestedAt : Time} (reached : fenceMachine.Reachable before)
    (requested : fenceMachine.step before
      (.requestCancel expectedControlVersion actorDigest requestedAt) cancelled)
    (continued : fenceMachine.Run cancelled later) :
    later.granted = before.granted ∧ later.WindowsInside ∧
      (∃ control after, cancelled.db.control = some control ∧ later.db.control = some after ∧
        after.modelCalls = control.modelCalls ∧ after.toolCalls = control.toolCalls) ∧
      ∀ operation after, operation.begins → fenceMachine.step later operation after →
        operation.Replays later ∧ after = later := by
  obtain ⟨control, stored, fenced⟩ := FencedRun.fenced_of_cancel requested
  have finally_ := fenced.continues continued
  have inside : later.WindowsInside := by
    have arrived := (reached.next _ requested).continue continued
    refine arrived.invariant FencedRun.WindowsInside ?_ fun holds _ stepped => holds.step stepped
    intro run initial call member
    rw [show run.granted = [] from initial] at member
    cases member
  obtain ⟨after, kept, _, models, tools⟩ := finally_.control
  exact ⟨finally_.granted.trans requested.2, inside, ⟨control, after, stored, kept, models, tools⟩,
    fun operation next begins stepped => finally_.begins begins stepped⟩

namespace ApprovedWrite

/-- The released write before anything was called or cancelled. -/
def fenced : FencedRun := { db := database .required, granted := [] }

/-- The same run after its operator cancelled it. -/
def cancelled : FencedRun :=
  { fenced with db := (database .required).storeControl { control with
      cancelRequest := some { requestedAt := 10, actorDigest := "operator" }
      updatedAt := 10
      version := 3 } }

theorem fenced_cancelled : fenceMachine.step fenced (.requestCancel 2 "operator" 10) cancelled :=
  ⟨by decide, rfl⟩

/-- A start that is only repeated is still answered after the cancellation. -/
theorem start_repeated_after_cancellation :
    ¬ ∀ (before cancelled later after : FencedRun) (expectedControlVersion : Nat)
    (actorDigest : String)
      (requestedAt : Time) (operation : FenceOperation), fenceMachine.Reachable before →
      fenceMachine.step before (.requestCancel expectedControlVersion actorDigest requestedAt)
        cancelled →
      fenceMachine.Run cancelled later → operation.begins →
        ¬ fenceMachine.step later operation after := by
  intro refused
  have repeated : fenceMachine.step cancelled (.startExecution 2 1) cancelled := ⟨by decide, rfl⟩
  exact refused fenced cancelled cancelled cancelled 2 "operator" 10
    (.startExecution 2 1) (.start rfl) fenced_cancelled .refl rfl repeated

theorem cancellation_fences_released_write :
    cancelled.granted = fenced.granted ∧ cancelled.WindowsInside ∧
      (∃ control after, cancelled.db.control = some control ∧ cancelled.db.control = some after ∧
        after.modelCalls = control.modelCalls ∧ after.toolCalls = control.toolCalls) ∧
      ∀ operation after, operation.begins → fenceMachine.step cancelled operation after →
        operation.Replays cancelled ∧ after = cancelled :=
  cancellation_fences_calls (.start rfl) fenced_cancelled .refl

end ApprovedWrite

end MarketingAgents
