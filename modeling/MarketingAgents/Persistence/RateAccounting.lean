import MarketingAgents.Library.FixedWindow
import MarketingAgents.Library.Machine
import MarketingAgents.Persistence.ExecutionControlEffects

namespace MarketingAgents

open Library

/-! # Fixed-window rate accounting

Any number of runs share the rate windows.  A reservation reads the windows
before its transaction writes, and its conditional update succeeds only while
the row it charges is still the one that it read.
-/

/-- What the key of a template's rate policy is the digest of. -/
structure RateLimitMaterial where
  templateId : String
  maxCalls : Nat
  windowSeconds : Nat
deriving DecidableEq

/-- Version one template policy so that incompatible windows never share a counter key. -/
def runtimeRateLimitKey (digest : RateLimitMaterial → String)
    (material : RateLimitMaterial) : String :=
  "rate-template-sha256-v1:" ++ digest material

/-- Digests of one value are of policies with one capacity and one window length. -/
def SeparatesPolicies (digest : RateLimitMaterial → String) : Prop :=
  ∀ left right, digest left = digest right →
    left.maxCalls = right.maxCalls ∧ left.windowSeconds = right.windowSeconds

/-- What is checked when a rate policy is loaded with its step. -/
structure RateLimitPolicySnapshot.Versioned (digest : RateLimitMaterial → String)
    (policy : RateLimitPolicySnapshot) : Prop where
  calls : 1 ≤ policy.maxCalls ∧ policy.maxCalls ≤ 100
  window : 1 ≤ policy.windowSeconds ∧ policy.windowSeconds ≤ 3600
  key : ∃ templateId, policy.key = runtimeRateLimitKey digest {
    templateId
    maxCalls := policy.maxCalls
    windowSeconds := policy.windowSeconds }

/-- Every rate policy that a run may be charged under is versioned. -/
structure Database.RatesVersioned (digest : RateLimitMaterial → String) (db : Database) : Prop where
  operations : ∀ stepId operation, db.operations.get? stepId = some operation →
    operation.policy.rateLimit.Versioned digest
  steps : ∀ stepId step, db.step? stepId = some step → step.runtimePolicy.rateLimit.Versioned digest

/-- One granted attempt or delivery call. -/
structure RateCharge where
  runId : String
  policy : RateLimitPolicySnapshot
  reservedAt : Time
deriving DecidableEq

/-- The key of the row that a charge is counted in. -/
def RateCharge.windowKey (charge : RateCharge) : String × Time :=
  (charge.policy.key, fixedWindowStart charge.reservedAt charge.policy.windowSeconds)

/-- Runs that share the rate windows, with the charges granted so far. -/
structure SharedRuns where
  windows : Table (String × Time) RateLimitWindow
  runs : Table String Database
  granted : List RateCharge

namespace SharedRuns

variable (state : SharedRuns)

/-- Write one charge, refused when its row is no longer the one that was read. -/
def commit (read : Table (String × Time) RateLimitWindow) (charge : RateCharge) (after : Database) :
    Except Rejection SharedRuns := do
  require (read.get? charge.windowKey = state.windows.get? charge.windowKey) "rate_limit_conflict"
    "rate-window capacity was consumed concurrently"
  let window ← requireSome (after.rateWindows.get? charge.windowKey) controlCorrupt
    "reserved attempt has no rate-window witness"
  return {
    windows := state.windows.put charge.windowKey window
    runs := state.runs.set charge.runId after
    granted := state.granted ++ [charge] }

def run (runId : String) : Except Rejection Database :=
  requireSome (state.runs.get? runId) "execution_run_missing"
    "execution policy requires an existing Run"

/-- Reserve an attempt of one run under the windows that were read. -/
def reserveAttempt (runId : String) (read : Table (String × Time) RateLimitWindow)
    (command : AttemptReservationCommand) : Except Rejection SharedRuns := do
  let db ← state.run runId
  let (_, after) ← ({ db with rateWindows := read } : Database).reserveAttempt command
  if (db.attempt? command.attemptId).isSome then return state
  else
    let operation ← requireSome (db.operation? command.stepId command.operationKey)
      "operation_policy_missing" "attempt operation policy is missing"
    state.commit read
      { runId, policy := operation.policy.rateLimit, reservedAt := command.reservedAt } after

/-- Reserve a delivery call of one run under the windows that were read. -/
def reserveDeliveryCall (runId : String) (read : Table (String × Time) RateLimitWindow)
    (command : DeliveryCallReservationCommand) : Except Rejection SharedRuns := do
  let db ← state.run runId
  let (_, after) ← ({ db with rateWindows := read } : Database).reserveDeliveryCall command
  let step ← requireSome (db.step? command.stepId) "delivery_step_fence_invalid"
    "delivery permit requires the exact runnable WRITE step policy"
  state.commit read
    { runId, policy := step.runtimePolicy.rateLimit, reservedAt := command.reservedAt } after

end SharedRuns

/-- A reservation of some run, or any other change of a run's own rows. -/
inductive RateOperation where
  | reserveAttempt (runId : String) (read : Table (String × Time) RateLimitWindow)
      (command : AttemptReservationCommand)
  | reserveDeliveryCall (runId : String) (read : Table (String × Time) RateLimitWindow)
      (command : DeliveryCallReservationCommand)
  | elsewhere (runId : String) (db : Database)

namespace RateOperation

def Applies (digest : RateLimitMaterial → String) (state : SharedRuns) (operation : RateOperation)
    (after : SharedRuns) : Prop :=
  match operation with
  | reserveAttempt runId read command => state.reserveAttempt runId read command = .ok after
  | reserveDeliveryCall runId read command =>
      state.reserveDeliveryCall runId read command = .ok after
  | elsewhere runId db =>
      db.RatesVersioned digest ∧ after = { state with runs := state.runs.put runId db }

end RateOperation

/-- The reservations of any number of runs, from the time no window has been charged. -/
def rateMachine (digest : RateLimitMaterial → String) : Machine SharedRuns RateOperation where
  initial state := state.windows = .empty ∧ state.granted = [] ∧
    ∀ runId db, state.runs.get? runId = some db → db.RatesVersioned digest
  step := RateOperation.Applies digest

/-- What is checked when a window is loaded: its times, its capacity and its use. -/
def RateLimitWindow.valid (startedAt : Time) (window : RateLimitWindow) : Bool :=
  startedAt ≤ window.updatedAt && window.updatedAt < window.endsAt && 1 ≤ window.capacity &&
    window.capacity ≤ 100 && 1 ≤ window.used && window.used ≤ window.capacity && 1 ≤ window.version

/-- The row after one more charge of a policy. -/
inductive WindowCharged (policy : RateLimitPolicySnapshot) (reservedAt endsAt : Time) :
    Option RateLimitWindow → RateLimitWindow → Prop where
  | opened : WindowCharged policy reservedAt endsAt none {
      endsAt
      capacity := policy.maxCalls
      used := 1
      version := 1
      updatedAt := reservedAt }
  | counted {window : RateLimitWindow} (capacity : window.capacity = policy.maxCalls)
      (ends : window.endsAt = endsAt) (room : window.used < window.capacity) :
      WindowCharged policy reservedAt endsAt (some window) { window with
        used := window.used + 1
        version := window.version + 1
        updatedAt := reservedAt }

namespace Database

variable {db after : Database} {attempt : ExecutionAttempt} {policy : RateLimitPolicySnapshot}
variable {reservedAt : Time} {corrupt exhausted : String}

theorem chargeRateWindow_charged
    (accepted : db.chargeRateWindow policy reservedAt corrupt exhausted = .ok after) :
    ∃ window, WindowCharged policy reservedAt
        (fixedWindowStart reservedAt policy.windowSeconds + seconds policy.windowSeconds)
        (db.rateWindows.get? (policy.key, fixedWindowStart reservedAt policy.windowSeconds))
          window ∧
      after.rateWindows = db.rateWindows.put
        (policy.key, fixedWindowStart reservedAt policy.windowSeconds) window := by
  simp only [chargeRateWindow] at accepted
  split at accepted
  · rename_i absent
    obtain rfl := pure_ok.mp accepted
    exact ⟨_, by rw [absent]; exact .opened, rfl⟩
  · rename_i current found
    simp only [bind_ok, require_ok] at accepted
    obtain ⟨_, ⟨capacity, ends⟩, accepted⟩ := accepted
    split at accepted
    · cases accepted
    · rename_i room
      obtain rfl := pure_ok.mp accepted
      exact ⟨_, by rw [found]; exact .counted capacity ends (Nat.lt_of_not_le room), rfl⟩

theorem reserveNewAttempt_charged (reserved : db.reserveNewAttempt command = .ok (attempt, after)) :
    ∃ operation window, db.operation? command.stepId command.operationKey = some operation ∧
      WindowCharged operation.policy.rateLimit command.reservedAt
        (fixedWindowStart command.reservedAt operation.policy.rateLimit.windowSeconds +
          seconds operation.policy.rateLimit.windowSeconds)
        (db.rateWindows.get? (operation.policy.rateLimit.key,
          fixedWindowStart command.reservedAt operation.policy.rateLimit.windowSeconds)) window ∧
      after.rateWindows = db.rateWindows.put (operation.policy.rateLimit.key,
        fixedWindowStart command.reservedAt operation.policy.rateLimit.windowSeconds) window := by
  simp only [reserveNewAttempt, bind_ok, require_ok, requireSome_ok, pure_ok, Prod.exists,
    Prod.mk.injEq] at reserved
  obtain ⟨_, _, _, _, _, _, _, _, _, operation, found, _, _, _, _, _, _, _, _, _, windowed,
    charged, _, _, _, _, _, rfl⟩ := reserved
  obtain ⟨window, counted, windows⟩ := chargeRateWindow_charged charged
  exact ⟨operation, window, found, counted, windows⟩

theorem reserveDeliveryCall_charged {permit : DeliveryCallPermit}
    (reserved : db.reserveDeliveryCall command = .ok (permit, after)) :
    ∃ step window, db.step? command.stepId = some step ∧
      WindowCharged step.runtimePolicy.rateLimit command.reservedAt
        (fixedWindowStart command.reservedAt step.runtimePolicy.rateLimit.windowSeconds +
          seconds step.runtimePolicy.rateLimit.windowSeconds)
        (db.rateWindows.get? (step.runtimePolicy.rateLimit.key,
          fixedWindowStart command.reservedAt step.runtimePolicy.rateLimit.windowSeconds)) window ∧
      after.rateWindows = db.rateWindows.put (step.runtimePolicy.rateLimit.key,
        fixedWindowStart command.reservedAt step.runtimePolicy.rateLimit.windowSeconds) window := by
  simp only [reserveDeliveryCall, bind_ok, require_ok, requireSome_ok, pure_ok, Prod.exists,
    Prod.mk.injEq] at reserved
  obtain ⟨_, _, _, _, _, step, found, _, _, _, _, _, _, _, _, windowed, charged, _, _, _, rfl⟩ :=
    reserved
  obtain ⟨window, counted, windows⟩ := chargeRateWindow_charged charged
  exact ⟨step, window, found, counted, windows⟩

end Database

/-- Every window counts the charges that fall into it, within its capacity. -/
structure RateAccounting (digest : RateLimitMaterial → String) (state : SharedRuns) : Prop where
  versioned : ∀ runId db, state.runs.get? runId = some db → db.RatesVersioned digest
  policies : ∀ charge ∈ state.granted, charge.policy.Versioned digest
  witnessed : ∀ charge ∈ state.granted, ∃ window,
    state.windows.get? charge.windowKey = some window ∧
    window.capacity = charge.policy.maxCalls
  counted : ∀ key window, state.windows.get? key = some window →
    window.used = state.granted.countP fun charge => charge.windowKey = key
  valid : ∀ key window, state.windows.get? key = some window → window.valid key.2

theorem RateLimitPolicySnapshot.Versioned.same {digest : RateLimitMaterial → String}
    {policy other : RateLimitPolicySnapshot} (separates : SeparatesPolicies digest)
    (versioned : policy.Versioned digest) (also : other.Versioned digest)
    (key : other.key = policy.key) :
    other.maxCalls = policy.maxCalls ∧ other.windowSeconds = policy.windowSeconds := by
  obtain ⟨_, named⟩ := versioned.key
  obtain ⟨_, again⟩ := also.key
  have digests := again.symm.trans (key.trans named)
  unfold runtimeRateLimitKey at digests
  exact separates _ _ ((String.append_right_inj _).mp digests)

theorem fixedWindowStart_eq (instant : Time) (windowSeconds : Nat) :
    fixedWindowStart instant windowSeconds = FixedWindow.floor (seconds windowSeconds) instant := by
  rw [fixedWindowStart, FixedWindow.floor]

theorem seconds_pos {count : Nat} (positive : 1 ≤ count) : 0 < seconds count :=
  Nat.mul_pos positive (by decide)

namespace RateAccounting

variable {digest : RateLimitMaterial → String} {state after : SharedRuns}

theorem charged_valid {charge : RateCharge} (versioned : charge.policy.Versioned digest)
    (charged : WindowCharged charge.policy charge.reservedAt
      (charge.windowKey.2 + seconds charge.policy.windowSeconds) row window)
    (before : ∀ found ∈ row, found.valid charge.windowKey.2) : window.valid charge.windowKey.2 := by
  have positive := seconds_pos versioned.window.1
  have low : charge.windowKey.2 ≤ charge.reservedAt := FixedWindow.floor_le
  have high : charge.reservedAt < charge.windowKey.2 + seconds charge.policy.windowSeconds :=
    FixedWindow.lt_floor_add positive
  cases charged with
  | opened =>
      simp only [RateLimitWindow.valid, Bool.and_eq_true, decide_eq_true_eq]
      exact ⟨⟨⟨⟨⟨⟨low, high⟩, versioned.calls.1⟩, versioned.calls.2⟩, Nat.le_refl 1⟩,
        versioned.calls.1⟩, Nat.le_refl 1⟩
  | counted capacity ends room =>
      have valid := before _ rfl
      simp only [RateLimitWindow.valid, Bool.and_eq_true, decide_eq_true_eq] at valid ⊢
      exact ⟨⟨⟨⟨⟨⟨low, by rw [ends]; exact high⟩, valid.1.1.1.1.2⟩, valid.1.1.1.2⟩, Nat.succ_pos _⟩,
        room⟩, Nat.succ_pos _⟩

/-- A granted charge is counted in its own window and in no other. -/
theorem commit {read : Table (String × Time) RateLimitWindow} {db : Database}
    (accounting : RateAccounting digest state) (charge : RateCharge)
    (policy : charge.policy.Versioned digest) (versioned : db.RatesVersioned digest)
    (charged : WindowCharged charge.policy charge.reservedAt
      (charge.windowKey.2 + seconds charge.policy.windowSeconds)
        (read.get? charge.windowKey) window)
    (windows : db.rateWindows = read.put charge.windowKey window)
    (committed : state.commit read charge db = .ok after) :
    RateAccounting digest after ∧ after.granted = state.granted ++ [charge] := by
  simp only [SharedRuns.commit, bind_ok, require_ok, requireSome_ok, pure_ok] at committed
  obtain ⟨_, fence, written, found, rfl⟩ := committed
  rw [windows, Table.get?_put, if_pos rfl] at found
  obtain rfl := Option.some.inj found
  rw [fence] at charged
  have counts : ∀ key, (state.granted ++ [charge]).countP (fun charge => charge.windowKey = key) =
      state.granted.countP (fun charge => charge.windowKey = key) +
        if charge.windowKey = key then 1 else 0 := by
    intro key
    simp [List.countP_append, List.countP_cons]
  refine ⟨?_, rfl⟩
  exact {
    versioned := by
      intro runId other lookup
      simp only [Table.set, Table.get?_modify] at lookup
      split at lookup
      · cases present : state.runs.get? charge.runId with
        | none => simp [present] at lookup
        | some _ =>
            simp only [present, Option.map_some, Option.some.injEq] at lookup
            exact lookup ▸ versioned
      · exact accounting.versioned runId other lookup
    policies := by
      intro other listed
      rcases List.mem_append.mp listed with old | new
      · exact accounting.policies other old
      · rw [List.mem_singleton.mp new]
        exact policy
    witnessed := by
      intro other listed
      rw [Table.get?_put]
      rcases List.mem_append.mp listed with old | new
      · obtain ⟨row, present, capacity⟩ := accounting.witnessed other old
        by_cases same : other.windowKey = charge.windowKey
        · refine ⟨window, by rw [if_pos same], ?_⟩
          rw [same] at present
          rw [present] at charged
          cases charged with
          | counted => exact capacity
        · exact ⟨row, by rw [if_neg same]; exact present, capacity⟩
      · rw [List.mem_singleton.mp new]
        refine ⟨window, by rw [if_pos rfl], ?_⟩
        generalize state.windows.get? charge.windowKey = row at charged
        cases charged with
        | opened => rfl
        | counted capacity => exact capacity
    counted := by
      intro key row lookup
      rw [Table.get?_put] at lookup
      rw [counts]
      split at lookup
      · rename_i same
        obtain rfl := Option.some.inj lookup
        subst same
        rw [if_pos rfl]
        cases present : state.windows.get? charge.windowKey with
        | none =>
            rw [present] at charged
            cases charged
            have empty : state.granted.countP (fun other => other.windowKey = charge.windowKey) =
                0 := by
              rw [List.countP_eq_zero]
              intro other listed
              obtain ⟨row, found, _⟩ := accounting.witnessed other listed
              simp only [decide_eq_true_eq]
              intro same
              rw [same, present] at found
              cases found
            rw [empty]
        | some before =>
            have earlier := accounting.counted _ _ present
            rw [present] at charged
            cases charged
            exact congrArg (· + 1) earlier
      · rename_i differs
        rw [if_neg (fun same => differs same.symm)]
        exact accounting.counted key row lookup
    valid := by
      intro key row lookup
      rw [Table.get?_put] at lookup
      split at lookup
      · rename_i same
        obtain rfl := Option.some.inj lookup
        subst same
        exact charged_valid policy charged fun found present => accounting.valid _ found present
      · exact accounting.valid key row lookup }

theorem reserve {runId : String} {read : Table (String × Time) RateLimitWindow}
    {command : AttemptReservationCommand} (accounting : RateAccounting digest state)
    (reserved : state.reserveAttempt runId read command = .ok after) :
    RateAccounting digest after ∧
      (after = state ∨ ∃ charge, after.granted = state.granted ++ [charge]) := by
  simp only [SharedRuns.reserveAttempt, SharedRuns.run, bind_ok, requireSome_ok,
    Prod.exists] at reserved
  obtain ⟨db, found, attempt, reservedDb, accepted, rest⟩ := reserved
  split at rest
  · obtain rfl := pure_ok.mp rest
    exact ⟨accounting, .inl rfl⟩
  · rename_i fresh
    simp only [bind_ok, requireSome_ok] at rest
    obtain ⟨operation, operationFound, committed⟩ := rest
    rcases Database.reserveAttempt_effect accepted with ⟨located, _⟩ | ⟨_, accepted⟩
    · have present : db.attempt? command.attemptId = some (command.stepId, attempt) := located
      simp [present] at fresh
    have versioned := accounting.versioned runId db found
    obtain ⟨again, window, lookup, charged, windows⟩ := Database.reserveNewAttempt_charged accepted
    obtain rfl : operation = again := Option.mem_unique operationFound lookup
    have named := Database.operation?_eq_some.mp operationFound
    obtain ⟨_, _, _, same, _, _, _, _, _, _, _, _, _, _, sameFound, _, _, row⟩ :=
      Database.reserveNewAttempt_effect accepted
    obtain rfl : operation = same := Option.mem_unique operationFound sameFound
    have kept : reservedDb.RatesVersioned digest := by
      rw [row]
      refine ⟨?_, versioned.steps⟩
      intro stepId other present
      have changed := present
      rw [Table.get?_set named.1] at changed
      split at changed
      · obtain rfl := Option.some.inj changed
        exact versioned.operations _ operation named.1
      · exact versioned.operations stepId other changed
    obtain ⟨accounted, granted⟩ := accounting.commit
      ({ runId, policy := operation.policy.rateLimit, reservedAt := command.reservedAt } :
        RateCharge)
      (versioned.operations _ operation named.1) kept charged windows committed
    exact ⟨accounted, .inr ⟨_, granted⟩⟩

theorem deliver {runId : String} {read : Table (String × Time) RateLimitWindow}
    {command : DeliveryCallReservationCommand} (accounting : RateAccounting digest state)
    (reserved : state.reserveDeliveryCall runId read command = .ok after) :
    RateAccounting digest after ∧ ∃ charge, after.granted = state.granted ++ [charge] := by
  simp only [SharedRuns.reserveDeliveryCall, SharedRuns.run, bind_ok, requireSome_ok,
    Prod.exists] at reserved
  obtain ⟨db, found, permit, reservedDb, accepted, step, stepFound, committed⟩ := reserved
  have versioned := accounting.versioned runId db found
  obtain ⟨again, window, lookup, charged, windows⟩ := Database.reserveDeliveryCall_charged accepted
  obtain rfl : step = again := Option.mem_unique stepFound lookup
  obtain ⟨_, _, _, _, _, _, _, _, _, _, _, _, _, _, _, _, _, row⟩ :=
    Database.reserveDeliveryCall_effect accepted
  have kept : reservedDb.RatesVersioned digest := by
    rw [row]
    exact ⟨versioned.operations, versioned.steps⟩
  obtain ⟨accounted, granted⟩ := accounting.commit
    ({ runId, policy := step.runtimePolicy.rateLimit, reservedAt := command.reservedAt } :
      RateCharge)
    (versioned.steps _ step stepFound) kept charged windows committed
  exact ⟨accounted, _, granted⟩

theorem step {operation : RateOperation} (accounting : RateAccounting digest state)
    (stepped : (rateMachine digest).step state operation after) :
    RateAccounting digest after ∧ ((∃ charge, after.granted = state.granted ++ [charge]) ∨
      after.granted = state.granted ∧ after.windows = state.windows) := by
  cases operation with
  | reserveAttempt runId read command =>
      obtain ⟨accounted, rfl | granted⟩ := accounting.reserve stepped
      · exact ⟨accounted, .inr ⟨rfl, rfl⟩⟩
      · exact ⟨accounted, .inl granted⟩
  | reserveDeliveryCall runId read command =>
      obtain ⟨accounted, granted⟩ := accounting.deliver stepped
      exact ⟨accounted, .inl granted⟩
  | elsewhere runId db =>
      obtain ⟨versioned, rfl⟩ := stepped
      refine ⟨{ accounting with versioned := ?_ }, .inr ⟨rfl, rfl⟩⟩
      intro other row lookup
      rw [Table.get?_put] at lookup
      split at lookup
      · obtain rfl := Option.some.inj lookup
        exact versioned
      · exact accounting.versioned other row lookup

theorem reachable (reached : (rateMachine digest).Reachable state) :
    RateAccounting digest state := by
  refine reached.invariant (RateAccounting digest) ?_ ?_
  · rintro state ⟨windows, granted, versioned⟩
    exact {
      versioned
      policies := by simp [granted]
      witnessed := by simp [granted]
      counted := by simp [windows]
      valid := by simp [windows] }
  · intro state operation after accounting stepped
    exact (accounting.step stepped).1

/-- No window holds more charges than the capacity of a policy that charges it. -/
theorem window_bounded (accounting : RateAccounting digest state)
    (separates : SeparatesPolicies digest)
    {charge : RateCharge} (listed : charge ∈ state.granted) (start : Time) :
    ((state.granted.filter (·.policy.key = charge.policy.key)).countP fun other =>
      FixedWindow.floor (seconds charge.policy.windowSeconds) other.reservedAt = start) ≤
      charge.policy.maxCalls := by
  have policy := accounting.policies charge listed
  have same : ∀ other ∈ state.granted, other.policy.key = charge.policy.key →
      other.policy.maxCalls = charge.policy.maxCalls ∧
        other.policy.windowSeconds = charge.policy.windowSeconds := fun other member key =>
    policy.same separates (accounting.policies other member) key
  have counted : ((state.granted.filter (·.policy.key = charge.policy.key)).countP fun other =>
      FixedWindow.floor (seconds charge.policy.windowSeconds) other.reservedAt = start) =
      state.granted.countP fun other => other.windowKey = (charge.policy.key, start) := by
    rw [List.countP_filter]
    refine List.countP_congr fun other member => ?_
    simp only [RateCharge.windowKey, Prod.mk.injEq, Bool.and_eq_true, decide_eq_true_eq,
      fixedWindowStart_eq]
    constructor
    · rintro ⟨floors, key⟩
      exact ⟨key, by rw [(same other member key).2]; exact floors⟩
    · rintro ⟨key, floors⟩
      exact ⟨by rw [← (same other member key).2]; exact floors, key⟩
  rw [counted]
  cases empty : state.granted.find? fun other => other.windowKey = (charge.policy.key, start) with
  | none =>
      have none_ : state.granted.countP (fun other =>
          other.windowKey = (charge.policy.key, start)) = 0 := by
        rw [List.countP_eq_zero]
        exact List.find?_eq_none.mp empty
      rw [none_]
      exact Nat.zero_le _
  | some other =>
      have key := List.find?_some empty
      simp only [decide_eq_true_eq] at key
      obtain ⟨window, found, capacity⟩ :=
        accounting.witnessed other (List.mem_of_find?_eq_some empty)
      rw [key] at found
      have valid := accounting.valid _ window found
      simp only [RateLimitWindow.valid, Bool.and_eq_true, decide_eq_true_eq] at valid
      rw [← accounting.counted _ window found]
      refine Nat.le_trans valid.1.2 (Nat.le_of_eq (capacity.trans ?_))
      exact (same other (List.mem_of_find?_eq_some empty) (congrArg Prod.fst key)).1

end RateAccounting

/-- Every window counts exactly the grants that floor to it and stays within its
capacity, only a grant changes a window, and no interval of one window length
sees more than twice the capacity. -/
theorem rate_windows_account {digest : RateLimitMaterial → String}
    (separates : SeparatesPolicies digest)
    {state : SharedRuns} (reached : (rateMachine digest).Reachable state) :
    (∀ key start window, state.windows.get? (key, start) = some window →
      (window.used = state.granted.countP fun charge => charge.policy.key = key ∧
        fixedWindowStart charge.reservedAt charge.policy.windowSeconds = start) ∧
      window.used ≤ window.capacity) ∧
    (∀ charge ∈ state.granted, ∃ window, state.windows.get? (charge.policy.key,
        fixedWindowStart charge.reservedAt charge.policy.windowSeconds) = some window ∧
      window.capacity = charge.policy.maxCalls) ∧
    (∀ operation after, (rateMachine digest).step state operation after →
      (∃ charge, after.granted = state.granted ++ [charge]) ∨
        after.granted = state.granted ∧ after.windows = state.windows) ∧
    ∀ charge ∈ state.granted, ∀ start,
      (state.granted.countP fun other => other.policy.key = charge.policy.key ∧
        start ≤ other.reservedAt ∧ other.reservedAt < start + seconds charge.policy.windowSeconds) ≤
        2 * charge.policy.maxCalls := by
  have accounting := RateAccounting.reachable reached
  refine ⟨?_, accounting.witnessed, fun _ _ stepped => (accounting.step stepped).2, ?_⟩
  · intro key start window found
    have valid := accounting.valid _ window found
    simp only [RateLimitWindow.valid, Bool.and_eq_true, decide_eq_true_eq] at valid
    refine ⟨?_, valid.1.2⟩
    rw [accounting.counted _ window found]
    simp only [RateCharge.windowKey, Prod.mk.injEq]
  · intro charge listed start
    have interval := FixedWindow.interval_le start RateCharge.reservedAt
      (seconds_pos (accounting.policies charge listed).window.1)
      (accounting.window_bounded separates listed)
    rw [List.countP_filter] at interval
    refine Nat.le_trans (Nat.le_of_eq (List.countP_congr fun other _ => ?_)) interval
    simp only [Bool.and_eq_true, decide_eq_true_eq]
    exact and_comm

namespace SharedTemplate

def material : RateLimitMaterial :=
  { templateId := "template", maxCalls := 10, windowSeconds := 60 }

/-- The digest of the one template these runs use, and a stand-in for any other. -/
def digest (other : RateLimitMaterial) : String :=
  if other = material then "015e3a8de140580846897825e2474aa32805b0e82838c0cd639bc019a678e45d"
  else String.ofList (List.replicate other.maxCalls 'x' ++
    'y' :: List.replicate other.windowSeconds 'z')

theorem digest_separates : SeparatesPolicies digest := by
  have outside :
      'y' ∉ "015e3a8de140580846897825e2474aa32805b0e82838c0cd639bc019a678e45d".toList := by
    decide
  intro left right same
  unfold digest at same
  split at same <;> split at same
  · rename_i first second
    rw [first, second]
    exact ⟨rfl, rfl⟩
  · rw [same, String.toList_ofList] at outside
    simp at outside
  · rw [← same, String.toList_ofList] at outside
    simp at outside
  · have lists := String.ofList_injective same
    have calls := congrArg (List.count 'x') lists
    have window := congrArg (List.count 'z') lists
    simp [List.count_append, List.count_replicate] at calls window
    exact ⟨calls, window⟩

def rateLimit : RateLimitPolicySnapshot where
  key := runtimeRateLimitKey digest material
  maxCalls := 10
  windowSeconds := 60

theorem rateLimit_versioned : rateLimit.Versioned digest where
  calls := by decide
  window := by decide
  key := ⟨"template", rfl⟩

def step : RunStep where
  key := "research"
  effect := .read
  connectorFamily := "search"
  dependencyKeys := []
  planHash := "plan"
  requestSchemaId := some "request"
  dataClassification := "internal"
  timeoutSeconds := none
  runtimePolicy := {
    operationKey := "research"
    attemptKind := .tool
    maxAttempts := 3
    backoff := .boundedExponential
    stepSeconds := 30
    rateLimit }
  state := .ready
  updatedAt := 1
  version := 2
  terminalReasonCode := none

def operation : Operation where
  policy := {
    operationKey := "research"
    kind := .tool
    policyHash := "plan"
    requestSchemaId := some "request"
    dataClassification := "internal"
    maxAttempts := 3
    retryBackoff := .boundedExponential
    stepTimeoutSeconds := 30
    rateLimit
    callable := by decide }
  attempts := []

def database (runId : String) : Database where
  runId
  workMode := .mockExecution
  run := {
    state := .executing
    version := 4
    createdAt := 0
    updatedAt := 1
    approvalRequired := some false
    terminalReasonCode := none }
  runTransitions := []
  steps := ⟨[("step", step)], by decide⟩
  stepTransitions := []
  operations := ⟨[("step", operation)], by decide⟩
  control := some {
    policyHash := "plan"
    runTimeoutSeconds := 300
    maxModelCalls := 0
    maxToolCalls := 1
    modelCalls := 0
    toolCalls := 0
    window := some { startedAt := 1, deadlineAt := 1 + seconds 300 }
    cancelRequest := none
    createdAt := 1
    updatedAt := 1
    version := 2 }
  actions := .empty
  receipts := .empty
  authorizationHead := none
  authorizationSets := .empty
  approvalRequests := .empty
  approvalUses := .empty
  rateWindows := .empty
  audits := []

theorem database_versioned (runId : String) : (database runId).RatesVersioned digest where
  operations := by
    intro stepId row found
    simp only [database, Table.get?_eq_some_iff, List.mem_singleton, Prod.mk.injEq] at found
    rw [found.2]
    exact rateLimit_versioned
  steps := by
    intro stepId row found
    simp only [database, Database.step?, Table.get?_eq_some_iff, List.mem_singleton,
      Prod.mk.injEq] at found
    rw [found.2]
    exact rateLimit_versioned

def command (reservedAt : Time) : AttemptReservationCommand where
  attemptId := "attempt"
  stepId := "step"
  operationKey := "research"
  expectedControlVersion := 2
  expectedStepVersion := 2
  reservedAt
  redactedInput := "input"
  inputSchemaId := none
  inputClassification := "internal"

def idle : SharedRuns where
  windows := .empty
  runs := ⟨[("first", database "first"), ("second", database "second")], by decide⟩
  granted := []

/-- Both runs reserve an attempt in the same window, one after the other. -/
def reservedTwice : Option SharedRuns := do
  let once ← (idle.reserveAttempt "first" idle.windows (command 10)).toOption
  (once.reserveAttempt "second" once.windows (command 20)).toOption

theorem rate_windows_account_twice : ∃ state, reservedTwice = some state ∧
    state.granted.map (·.runId) = ["first", "second"] ∧
    ∀ window, state.windows.get? (rateLimit.key, 0) = some window →
      window.used ≤ window.capacity := by
  have charged : reservedTwice.map (fun state => state.granted.map (·.runId)) =
      some ["first", "second"] := by
    decide
  simp only [Option.map_eq_some_iff] at charged
  obtain ⟨state, reserved, grants⟩ := charged
  have started : (rateMachine digest).Reachable idle := by
    refine .start ⟨rfl, rfl, fun runId db found => ?_⟩
    simp only [idle, Table.get?_eq_some_iff, List.mem_cons, Prod.mk.injEq, List.not_mem_nil,
      or_false] at found
    rcases found with ⟨_, rfl⟩ | ⟨_, rfl⟩ <;> exact database_versioned _
  have accepted : ∀ {before : SharedRuns} {runId : String} {reservedAt : Time} {after : SharedRuns},
      (before.reserveAttempt runId before.windows (command reservedAt)).toOption = some after →
      (rateMachine digest).Reachable before → (rateMachine digest).Reachable after := by
    intro before runId reservedAt after outcome reached
    refine Machine.Reachable.next (.reserveAttempt runId before.windows (command reservedAt))
      reached ?_
    cases result : before.reserveAttempt runId before.windows (command reservedAt) with
    | error reason => simp [result, Except.toOption] at outcome
    | ok next =>
        rw [result] at outcome
        obtain rfl : next = after := Option.some.inj outcome
        exact result
  have reached : (rateMachine digest).Reachable state := by
    simp only [reservedTwice, bind, Option.bind_eq_some_iff] at reserved
    obtain ⟨once, first, second⟩ := reserved
    exact accepted second (accepted first started)
  exact ⟨state, reserved, grants, fun window found =>
    ((rate_windows_account digest_separates reached).1 _ _ window found).2⟩

end SharedTemplate

end MarketingAgents
