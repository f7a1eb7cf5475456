import MarketingAgents.Domain.Enums
import MarketingAgents.Domain.Validation
import MarketingAgents.Library.Table

namespace MarketingAgents

open Library

/-! # Webhook rate windows

The limiter of one process counts the calls of every authenticated source in
fixed windows.  It tracks a bounded number of sources and forgets expired
windows when an untracked source calls.
-/

structure SourceWindow where
  startedAt : Time
  lastSeenAt : Time
  calls : Nat
  maxCalls : Nat
  windowSeconds : Nat
deriving DecidableEq

structure RateCall where
  source : String
  observedAt : Time
  maxCalls : Nat
  windowSeconds : Nat
deriving DecidableEq

inductive RateDecision where
  | allowed
  | denied (retryAfterSeconds : Nat)
deriving DecidableEq

structure WebhookRateLimiter where
  maxTrackedSources : Nat
  windows : Table String SourceWindow
deriving DecidableEq

def maxWebhookRateCalls : Nat := 10000

def maxWebhookRateWindowSeconds : Nat := 3600

/-- One bounded path-segment identifier. -/
def requireWebhookSourceId (value fieldName : String) : Except Rejection Unit :=
  require (value.toList.head?.any alphanumeric ∧ value.toList.length ≤ 100 ∧
      value.toList.all fun character => alphanumeric character || character ∈ [':', '.', '_', '-'])
    "ValueError" (fieldName ++ " must be one bounded path-segment identifier")

def RateCall.validate (call : RateCall) : Except Rejection Unit := do
  requireWebhookSourceId call.source "webhook rate-limit source"
  require (1 ≤ call.maxCalls ∧ call.maxCalls ≤ maxWebhookRateCalls)
    "ValueError" "webhook rate-limit call bound is invalid"
  require (1 ≤ call.windowSeconds ∧ call.windowSeconds ≤ maxWebhookRateWindowSeconds)
    "ValueError" "webhook rate-limit window is invalid"

namespace SourceWindow

variable (state : SourceWindow) (observedAt : Time)

def expiresAt : Time := state.startedAt + seconds state.windowSeconds

/-- A clock that went back is taken to stand still until it catches up. -/
def effectiveAt : Time := max observedAt state.lastSeenAt

/-- The whole seconds until a window expires. -/
def retryAfter : Nat :=
  max 1 (min ((state.expiresAt - state.effectiveAt observedAt + 999999) / 1000000)
    state.windowSeconds)

end SourceWindow

namespace WebhookRateLimiter

variable (limiter : WebhookRateLimiter)

def empty (maxTrackedSources : Nat) : WebhookRateLimiter := ⟨maxTrackedSources, .empty⟩

def pruneExpired (observedAt : Time) : WebhookRateLimiter :=
  { limiter with
    windows := limiter.windows.filter fun _ state =>
      state.effectiveAt observedAt < state.expiresAt }

def track (source : String) (state : SourceWindow) : WebhookRateLimiter :=
  { limiter with windows := limiter.windows.put source state }

def capacityExhausted : Rejection where
  code := "WebhookAdmissionRateLimiterUnavailable"
  message := "webhook admission rate limiter capacity is exhausted"

def policyChanged : Rejection where
  code := "WebhookAdmissionRateLimiterUnavailable"
  message := "webhook admission rate policy changed within an active process"

/-- Consume one slot of a source.  An expired window is pruned even where the call fails. -/
def consume (call : RateCall) : WebhookRateLimiter × Except Rejection RateDecision :=
  match call.validate with
  | .error reason => (limiter, .error reason)
  | .ok () =>
      match limiter.windows.get? call.source with
      | none =>
          let pruned := limiter.pruneExpired call.observedAt
          if pruned.maxTrackedSources ≤ pruned.windows.entries.length then
            (pruned, .error capacityExhausted)
          else (pruned.track call.source {
            startedAt := call.observedAt
            lastSeenAt := call.observedAt
            calls := 1
            maxCalls := call.maxCalls
            windowSeconds := call.windowSeconds }, .ok .allowed)
      | some state =>
          if state.maxCalls ≠ call.maxCalls ∨ state.windowSeconds ≠ call.windowSeconds then
            (limiter, .error policyChanged)
          else
            let effectiveAt := state.effectiveAt call.observedAt
            if state.expiresAt ≤ effectiveAt then
              (limiter.track call.source
                { state with startedAt := effectiveAt, lastSeenAt := effectiveAt, calls := 1 },
                  .ok .allowed)
            else if state.calls < state.maxCalls then
              (limiter.track call.source
                { state with lastSeenAt := effectiveAt, calls := state.calls + 1 }, .ok .allowed)
            else
              (limiter.track call.source { state with lastSeenAt := effectiveAt },
                .ok (.denied (state.retryAfter call.observedAt)))

end WebhookRateLimiter

/-- A call with the limiter that it meets. -/
structure RateEntry where
  before : WebhookRateLimiter
  call : RateCall

namespace RateEntry

variable (entry : RateEntry)

def outcome : Except Rejection RateDecision := (entry.before.consume entry.call).2

def after : WebhookRateLimiter := (entry.before.consume entry.call).1

def state : Option SourceWindow := entry.before.windows.get? entry.call.source

def effectiveAt : Time :=
  (entry.state.map (·.effectiveAt entry.call.observedAt)).getD entry.call.observedAt

/-- An allowed call that starts a window of its source. -/
def Starts : Prop := entry.outcome = .ok .allowed ∧
    ∀ state ∈ entry.state, state.expiresAt ≤ entry.effectiveAt

/-- An allowed call of the source. -/
def allowed (source : String) : Bool := entry.call.source = source && entry.outcome = .ok .allowed

end RateEntry

/-- The calls of a sequence with the limiters that they meet. -/
def WebhookRateLimiter.trace (limiter : WebhookRateLimiter) : List RateCall → List RateEntry
  | [] => []
  | call :: rest => ⟨limiter, call⟩ :: (limiter.consume call).1.trace rest

/-- The latest time that any call of a sequence was observed at. -/
def latestObserved (entries : List RateEntry) : Time :=
  (entries.map (·.call.observedAt)).foldr max 0

namespace RateEntry

variable {entry : RateEntry}

/-- A call fails, counts as the first or as one more of its window, or is denied. -/
inductive Effect (entry : RateEntry) : Prop where
  | failed (reason : Rejection) (outcome : entry.outcome = .error reason)
      (unchanged : entry.after = entry.before)
      (misused : entry.call.validate = .error reason ∨ ∃ state, entry.state = some state ∧
        (state.maxCalls ≠ entry.call.maxCalls ∨ state.windowSeconds ≠ entry.call.windowSeconds))
  | exhausted (outcome : entry.outcome = .error WebhookRateLimiter.capacityExhausted)
      (untracked : entry.state = none)
      (pruned : entry.after = entry.before.pruneExpired entry.call.observedAt)
  | started (valid : entry.call.validate = .ok ()) (outcome : entry.outcome = .ok .allowed)
      (untracked : entry.state = none)
      (after : entry.after = (entry.before.pruneExpired entry.call.observedAt).track
        entry.call.source
        ⟨entry.call.observedAt, entry.call.observedAt, 1, entry.call.maxCalls,
          entry.call.windowSeconds⟩)
  | restarted (state : SourceWindow) (valid : entry.call.validate = .ok ())
      (outcome : entry.outcome = .ok .allowed)
      (tracked : entry.state = some state)
      (expired : state.expiresAt ≤ state.effectiveAt entry.call.observedAt)
      (after : entry.after = entry.before.track entry.call.source
        { state with startedAt := state.effectiveAt entry.call.observedAt
                     lastSeenAt := state.effectiveAt entry.call.observedAt, calls := 1 })
  | counted (state : SourceWindow) (outcome : entry.outcome = .ok .allowed)
      (tracked : entry.state = some state)
      (running : state.effectiveAt entry.call.observedAt < state.expiresAt)
      (below : state.calls < state.maxCalls)
      (after : entry.after = entry.before.track entry.call.source
        { state with
          lastSeenAt := state.effectiveAt entry.call.observedAt, calls := state.calls + 1 })
  | refused (state : SourceWindow) (valid : entry.call.validate = .ok ())
      (outcome : entry.outcome = .ok (.denied (state.retryAfter entry.call.observedAt)))
      (tracked : entry.state = some state) (running : state.effectiveAt entry.call.observedAt <
        state.expiresAt)
      (same : state.maxCalls = entry.call.maxCalls ∧ state.windowSeconds = entry.call.windowSeconds)
      (after : entry.after = entry.before.track entry.call.source
        { state with lastSeenAt := state.effectiveAt entry.call.observedAt })

theorem effect (entry : RateEntry) : entry.Effect := by
  cases checked : entry.call.validate with
  | error reason =>
      exact .failed reason (by simp [outcome, WebhookRateLimiter.consume, checked])
        (by simp [after, WebhookRateLimiter.consume, checked]) (.inl checked)
  | ok done =>
      cases found : entry.state with
      | none =>
          have lookup : entry.before.windows.get? entry.call.source = none := found
          by_cases full : (entry.before.pruneExpired entry.call.observedAt).maxTrackedSources ≤
              (entry.before.pruneExpired entry.call.observedAt).windows.entries.length
          · exact .exhausted (by simp [outcome, WebhookRateLimiter.consume, checked, lookup, full])
              found (by simp [after, WebhookRateLimiter.consume, checked, lookup, full])
          · exact .started checked
              (by simp [outcome, WebhookRateLimiter.consume, checked, lookup, full]) found
              (by simp [after, WebhookRateLimiter.consume, checked, lookup, full])
      | some state =>
          have lookup : entry.before.windows.get? entry.call.source = some state := found
          by_cases changed : state.maxCalls ≠ entry.call.maxCalls ∨
            state.windowSeconds ≠ entry.call.windowSeconds
          · exact .failed WebhookRateLimiter.policyChanged
              (by simp only [outcome, WebhookRateLimiter.consume, checked, lookup, if_pos changed])
              (by simp only [after, WebhookRateLimiter.consume, checked, lookup, if_pos changed])
              (.inr ⟨state, found, changed⟩)
          · by_cases expired : state.expiresAt ≤ state.effectiveAt entry.call.observedAt
            · exact .restarted state checked
                (by simp only [outcome, WebhookRateLimiter.consume, checked, lookup, if_neg changed,
                  if_pos expired])
                found expired
                (by simp only [after, WebhookRateLimiter.consume, checked, lookup, if_neg changed,
                  if_pos expired])
            · by_cases below : state.calls < state.maxCalls
              · exact .counted state
                  (by simp only [outcome, WebhookRateLimiter.consume, checked, lookup,
                    if_neg changed, if_neg expired, if_pos below])
                  found (Nat.lt_of_not_le expired) below
                  (by simp only [after, WebhookRateLimiter.consume, checked, lookup, if_neg changed,
                    if_neg expired, if_pos below])
              · rw [not_or, ne_eq, ne_eq, not_not, not_not] at changed
                have unchanged : ¬(state.maxCalls ≠ entry.call.maxCalls ∨
                    state.windowSeconds ≠ entry.call.windowSeconds) := by
                  rw [not_or, ne_eq, ne_eq, not_not, not_not]
                  exact changed
                exact .refused state checked
                  (by simp only [outcome, WebhookRateLimiter.consume, checked, lookup,
                    if_neg unchanged, if_neg expired, if_neg below])
                  found (Nat.lt_of_not_le expired) changed
                  (by simp only [after, WebhookRateLimiter.consume, checked, lookup,
                    if_neg unchanged, if_neg expired, if_neg below])

end RateEntry

/-- The policy of a source. -/
structure RatePolicy where
  maxCalls : Nat
  windowSeconds : Nat

def RateCall.Follows (policy : String → RatePolicy) (call : RateCall) : Prop :=
  call.maxCalls = (policy call.source).maxCalls ∧
    call.windowSeconds = (policy call.source).windowSeconds

/-- A window that was not yet expired when it was last seen. -/
structure SourceWindow.Proper (policy : RatePolicy) (state : SourceWindow) : Prop where
  maxCalls : state.maxCalls = policy.maxCalls
  windowSeconds : state.windowSeconds = policy.windowSeconds
  started : state.startedAt ≤ state.lastSeenAt
  running : state.lastSeenAt < state.expiresAt
  calls : state.calls ≤ state.maxCalls

def WebhookRateLimiter.Proper (policy : String → RatePolicy)
    (limiter : WebhookRateLimiter) : Prop :=
  ∀ source state, limiter.windows.get? source = some state → state.Proper (policy source)

/-- The window of a source that started at a time and allowed a number of calls, or that was
forgotten after it expired. -/
def WebhookRateLimiter.Since (policy : String → RatePolicy) (source : String)
    (start : Time) (calls : Nat) (times : List Time) (limiter : WebhookRateLimiter) : Prop :=
  match limiter.windows.get? source with
  | some state => state.startedAt = start ∧ state.calls = calls
  | none => calls ≤ (policy source).maxCalls ∧
      ∃ time ∈ times, start + seconds (policy source).windowSeconds ≤ time

namespace WebhookRateLimiter

variable {limiter : WebhookRateLimiter} {source other : String} {state : SourceWindow}
  {observedAt : Time}

@[simp] theorem get?_track : (limiter.track source state).windows.get? other =
    if other = source then some state else limiter.windows.get? other := Table.get?_put

theorem get?_pruneExpired (limiter : WebhookRateLimiter) (source : String) (observedAt : Time) :
    (limiter.pruneExpired observedAt).windows.get? source = limiter.windows.get? source ∨
    (limiter.pruneExpired observedAt).windows.get? source = none ∧
      ∃ state, limiter.windows.get? source = some state ∧
        state.expiresAt ≤ state.effectiveAt observedAt := by
  simp only [pruneExpired, Table.get?_filter]
  cases found : limiter.windows.get? source with
  | none => exact .inl rfl
  | some state =>
      by_cases running : state.effectiveAt observedAt < state.expiresAt
      · exact .inl (by simp [Option.filter, running])
      · exact .inr ⟨by simp [Option.filter, running], state, rfl, Nat.le_of_not_lt running⟩

theorem Proper.pruneExpired {policy : String → RatePolicy} (proper : limiter.Proper policy) :
    (limiter.pruneExpired observedAt).Proper policy := by
  intro source state found
  obtain same | ⟨forgotten, _⟩ := get?_pruneExpired limiter source observedAt
  · exact proper source state (same ▸ found)
  · rw [forgotten] at found
    cases found

theorem Proper.track {policy : String → RatePolicy} (proper : limiter.Proper policy)
    (tracked : state.Proper (policy source)) : (limiter.track source state).Proper policy := by
  intro other found lookup
  rw [get?_track] at lookup
  split at lookup
  · rename_i same
    cases lookup
    exact same ▸ tracked
  · exact proper other found lookup

end WebhookRateLimiter

namespace RateEntry

variable {entry : RateEntry} {policy : String → RatePolicy} {source : String}
  {start : Time} {calls : Nat} {times : List Time}

theorem lt_add_seconds {instant : Time} {count : Nat} (positive : 1 ≤ count) :
    instant < instant + seconds count :=
  Nat.lt_add_of_pos_right (Nat.mul_pos positive (by decide))

theorem validate_window (valid : entry.call.validate = .ok ()) :
    1 ≤ entry.call.maxCalls ∧ 1 ≤ entry.call.windowSeconds := by
  simp only [RateCall.validate, bind_ok, require_ok] at valid
  obtain ⟨_, _, _, calls, window⟩ := valid
  exact ⟨calls.1, window.1⟩

theorem proper_after (proper : entry.before.Proper policy) (follows : entry.call.Follows policy) :
    entry.after.Proper policy := by
  have tracked (state : SourceWindow) (found : entry.state = some state) :
    state.Proper (policy entry.call.source) :=
    proper _ _ found
  cases entry.effect with
  | failed _ _ unchanged _ => exact unchanged ▸ proper
  | exhausted _ _ pruned => exact pruned ▸ proper.pruneExpired
  | started valid _ _ after =>
      obtain ⟨one, window⟩ := validate_window valid
      rw [after]
      exact proper.pruneExpired.track ⟨follows.1, follows.2, Nat.le_refl _,
        lt_add_seconds window, one⟩
  | restarted state valid _ found expired after =>
      obtain ⟨maxCalls, windowSeconds, _, running, _⟩ := tracked state found
      obtain ⟨one, window⟩ := validate_window valid
      rw [after]
      have positive : 1 ≤ state.windowSeconds := by
        rw [windowSeconds, ← follows.2]
        exact window
      have room : 1 ≤ state.maxCalls := by
        rw [maxCalls, ← follows.1]
        exact one
      exact proper.track ⟨maxCalls, windowSeconds, Nat.le_refl _, lt_add_seconds positive, room⟩
  | counted state _ found running below after =>
      obtain ⟨maxCalls, windowSeconds, began, _, _⟩ := tracked state found
      rw [after]
      exact proper.track ⟨maxCalls, windowSeconds, Nat.le_trans began (Nat.le_max_right _ _),
        running, below⟩
  | refused state _ _ found running _ after =>
      obtain ⟨maxCalls, windowSeconds, began, _, counted⟩ := tracked state found
      rw [after]
      exact proper.track ⟨maxCalls, windowSeconds, Nat.le_trans began (Nat.le_max_right _ _),
        running, counted⟩

theorem other_after (proper : entry.before.Proper policy) (other : source ≠ entry.call.source) :
    entry.after.windows.get? source = entry.before.windows.get? source ∨
      entry.after.windows.get? source = none ∧
        ∃ state, entry.before.windows.get? source = some state ∧
          state.expiresAt ≤ entry.call.observedAt := by
  have pruned : (entry.before.pruneExpired entry.call.observedAt).windows.get? source =
        entry.before.windows.get? source ∨
      (entry.before.pruneExpired entry.call.observedAt).windows.get? source = none ∧
        ∃ state, entry.before.windows.get? source = some state ∧
            state.expiresAt ≤ entry.call.observedAt := by
    obtain same | ⟨forgotten, state, found, expired⟩ :=
      WebhookRateLimiter.get?_pruneExpired entry.before source entry.call.observedAt
    · exact .inl same
    · refine .inr ⟨forgotten, state, found, ?_⟩
      -- The window was not expired when it was last seen, so the observed time is the later one.
      have running := (proper source state found).running
      rcases Nat.le_total entry.call.observedAt state.lastSeenAt with early | late
      · rw [SourceWindow.effectiveAt, Nat.max_eq_right early] at expired
        exact absurd running (Nat.not_lt.mpr expired)
      · rw [SourceWindow.effectiveAt, Nat.max_eq_left late] at expired
        exact expired
  cases entry.effect with
  | failed _ _ unchanged _ => exact .inl (by rw [unchanged])
  | exhausted _ _ after => exact after ▸ pruned
  | started _ _ _ after =>
      rw [after, WebhookRateLimiter.get?_track, if_neg other]
      exact pruned
  | restarted state _ _ _ _ after =>
      exact .inl (by rw [after, WebhookRateLimiter.get?_track, if_neg other])
  | counted state _ _ _ _ after =>
      exact .inl (by rw [after, WebhookRateLimiter.get?_track, if_neg other])
  | refused state _ _ _ _ _ after =>
      exact .inl (by rw [after, WebhookRateLimiter.get?_track, if_neg other])

theorem since_same {before after : WebhookRateLimiter} (time : Time)
    (same : after.windows.get? source = before.windows.get? source)
    (since : before.Since policy source start calls times) :
    after.Since policy source start calls (times ++ [time]) := by
  unfold WebhookRateLimiter.Since at since ⊢
  rw [same]
  split <;> rename_i found <;> rw [found] at since
  · exact since
  · exact ⟨since.1, since.2.imp fun time late => ⟨List.mem_append_left _ late.1, late.2⟩⟩

/-- A call that does not start a window of the source keeps the one that it has. -/
theorem since_after (proper : entry.before.Proper policy)
    (since : entry.before.Since policy source start calls times)
    (within : entry.call.source = source → ¬entry.Starts) :
    entry.after.Since policy source start (calls + (if entry.allowed source then 1 else 0))
      (times ++ [entry.call.observedAt]) := by
  by_cases own : entry.call.source = source
  · subst own
    have refused : ∀ {decision}, entry.outcome = decision → decision ≠ .ok .allowed →
        entry.allowed entry.call.source = false := by
      intro decision outcome denied
      rw [allowed, outcome, decide_eq_false denied, Bool.and_false]
    cases entry.effect with
    | failed reason outcome unchanged _ =>
        rw [refused outcome nofun, if_neg Bool.false_ne_true, Nat.add_zero]
        exact since_same _ (by rw [unchanged]) since
    | exhausted outcome untracked pruned =>
        rw [refused outcome nofun, if_neg Bool.false_ne_true, Nat.add_zero]
        have untracked : entry.before.windows.get? entry.call.source = none := untracked
        have gone : entry.after.windows.get? entry.call.source = none := by
          rw [pruned]
          obtain same | ⟨gone, _⟩ :=
            WebhookRateLimiter.get?_pruneExpired entry.before entry.call.source
              entry.call.observedAt
          · exact same.trans untracked
          · exact gone
        exact since_same _ (gone.trans untracked.symm) since
    | started valid outcome untracked after =>
        exact absurd ⟨outcome, by simp [untracked]⟩ (within rfl)
    | restarted state valid outcome found expired after =>
        refine absurd ⟨outcome, ?_⟩ (within rfl)
        intro other member
        rw [found, Option.mem_some_iff] at member
        subst member
        rw [effectiveAt, found]
        exact expired
    | counted state outcome found running below after =>
        have counts : entry.allowed entry.call.source = true := by simp [allowed, outcome]
        have found : entry.before.windows.get? entry.call.source = some state := found
        unfold WebhookRateLimiter.Since at since ⊢
        rw [found] at since
        rw [after, WebhookRateLimiter.get?_track, if_pos rfl, counts, if_pos rfl]
        exact ⟨since.1, congrArg (· + 1) since.2⟩
    | refused state valid outcome found running same after =>
        have found : entry.before.windows.get? entry.call.source = some state := found
        unfold WebhookRateLimiter.Since at since ⊢
        rw [found] at since
        rw [after, WebhookRateLimiter.get?_track, if_pos rfl, refused outcome nofun,
          if_neg Bool.false_ne_true]
        exact since
  · have uncounted : entry.allowed source = false := by simp [allowed, own]
    rw [uncounted, if_neg Bool.false_ne_true, Nat.add_zero]
    obtain same | ⟨gone, state, found, expired⟩ := other_after proper (Ne.symm own)
    · exact since_same _ same since
    · have kept := proper source state found
      unfold WebhookRateLimiter.Since at since ⊢
      rw [found] at since
      rw [gone]
      obtain ⟨began, counted⟩ := since
      refine ⟨by rw [← counted, ← kept.maxCalls]; exact kept.calls, entry.call.observedAt,
        List.mem_append_right _ List.mem_cons_self, ?_⟩
      rw [← began, ← kept.windowSeconds]
      exact expired

theorem since_start (starts : entry.Starts) :
    entry.after.Since policy entry.call.source entry.effectiveAt 1 [] := by
  obtain ⟨outcome, expired⟩ := starts
  have lookup (state : SourceWindow) (after : ∃ limiter : WebhookRateLimiter,
    entry.after = limiter.track entry.call.source state) :
      entry.after.windows.get? entry.call.source = some state := by
    obtain ⟨limiter, after⟩ := after
    rw [after, WebhookRateLimiter.get?_track, if_pos rfl]
  unfold WebhookRateLimiter.Since
  cases entry.effect with
  | failed _ failed _ _ => rw [failed] at outcome; cases outcome
  | exhausted failed _ _ => rw [failed] at outcome; cases outcome
  | refused _ _ denied _ _ _ _ => rw [denied] at outcome; cases outcome
  | started _ _ untracked after =>
      rw [lookup _ ⟨_, after⟩]
      exact ⟨by rw [effectiveAt, untracked]; rfl, rfl⟩
  | restarted state _ _ found _ after =>
      rw [lookup _ ⟨_, after⟩]
      exact ⟨by rw [effectiveAt, found]; rfl, rfl⟩
  | counted state _ found running _ after =>
      have late := expired state (by rw [found]; rfl)
      rw [effectiveAt, found] at late
      exact absurd running (Nat.not_lt.mpr late)

end RateEntry

namespace WebhookRateLimiter

variable {policy : String → RatePolicy} {limiter : WebhookRateLimiter} {calls : List RateCall}

theorem trace_split {before after : List RateEntry} {entry : RateEntry}
    (proper : limiter.Proper policy) (follow : ∀ call ∈ calls, call.Follows policy)
    (split : limiter.trace calls = before ++ entry :: after) :
    entry.before.Proper policy ∧ entry.call.Follows policy ∧
      ∃ rest, (∀ call ∈ rest, call.Follows policy) ∧ after = entry.after.trace rest := by
  induction calls generalizing limiter before with
  | nil =>
      rw [trace] at split
      simp at split
  | cons call rest ih =>
      have first := follow call List.mem_cons_self
      have later := fun other member => follow other (List.mem_cons_of_mem call member)
      rw [trace] at split
      cases before with
      | nil =>
          obtain ⟨rfl, rfl⟩ := List.cons.inj split
          exact ⟨proper, first, rest, later, rfl⟩
      | cons head before =>
          obtain ⟨_, split⟩ := List.cons.inj split
          have kept : (RateEntry.mk limiter call).after.Proper policy :=
            RateEntry.proper_after proper first
          exact ih kept later split

theorem since_run {start : Time} {count : Nat} {between after : List RateEntry}
    (proper : limiter.Proper policy) (follow : ∀ call ∈ calls, call.Follows policy)
    (since : limiter.Since policy source start count times)
    (split : limiter.trace calls = between ++ after)
    (within : ∀ entry ∈ between, entry.call.source = source → ¬entry.Starts) :
    ∃ last : WebhookRateLimiter, last.Proper policy ∧
      last.Since policy source start (count + between.countP (·.allowed source))
        (times ++ between.map (·.call.observedAt)) ∧
      ∃ rest, (∀ call ∈ rest, call.Follows policy) ∧ after = last.trace rest := by
  induction between generalizing limiter calls count times with
  | nil => exact ⟨limiter, proper, by simpa using since, calls, follow, split.symm⟩
  | cons entry between ih =>
      cases calls with
      | nil =>
          rw [trace] at split
          simp at split
      | cons call rest =>
          rw [trace] at split
          obtain ⟨rfl, tail⟩ := List.cons.inj split
          have first := follow call List.mem_cons_self
          have kept := RateEntry.since_after proper since (within _ List.mem_cons_self)
          have tail : (RateEntry.mk limiter call).after.trace rest = between ++ after := tail
          obtain ⟨last, lastProper, lastSince, remaining⟩ :=
            ih (RateEntry.proper_after proper first)
            (fun other member => follow other (List.mem_cons_of_mem call member)) kept tail
            (fun other member => within other (List.mem_cons_of_mem _ member))
          refine ⟨last, lastProper, ?_, remaining⟩
          rw [Nat.add_right_comm, List.append_assoc, List.singleton_append] at lastSince
          rw [List.countP_cons, List.map_cons, ← Nat.add_assoc]
          exact lastSince

theorem silent_run {state : SourceWindow} {between after : List RateEntry}
    (proper : limiter.Proper policy) (follow : ∀ call ∈ calls, call.Follows policy)
    (known : limiter.windows.get? source = some state ∨ limiter.windows.get? source = none)
    (split : limiter.trace calls = between ++ after)
    (silent : ∀ entry ∈ between, entry.call.source ≠ source) :
    ∃ last : WebhookRateLimiter, (last.windows.get? source = some state ∨
      last.windows.get? source = none) ∧
      ∃ rest, after = last.trace rest := by
  induction between generalizing limiter calls with
  | nil => exact ⟨limiter, known, calls, split.symm⟩
  | cons entry between ih =>
      cases calls with
      | nil =>
          rw [trace] at split
          simp at split
      | cons call rest =>
          rw [trace] at split
          obtain ⟨rfl, tail⟩ := List.cons.inj split
          have tail : (RateEntry.mk limiter call).after.trace rest = between ++ after := tail
          have first := follow call List.mem_cons_self
          refine ih (RateEntry.proper_after proper first)
            (fun other member => follow other (List.mem_cons_of_mem call member)) ?_ tail
            (fun other member => silent other (List.mem_cons_of_mem _ member))
          obtain same | ⟨gone, _⟩ :=
            RateEntry.other_after proper (Ne.symm (silent _ List.mem_cons_self))
          · rw [same]
            exact known
          · exact .inr gone

end WebhookRateLimiter

namespace RateEntry

variable {entry : RateEntry} {policy : String → RatePolicy} {retryAfter : Nat}

theorem denied (proper : entry.before.Proper policy)
    (outcome : entry.outcome = .ok (.denied retryAfter)) :
    entry.call.validate = .ok () ∧ ∃ state,
      entry.after.windows.get? entry.call.source = some state ∧
      state.maxCalls = entry.call.maxCalls ∧ state.windowSeconds = entry.call.windowSeconds ∧
      state.expiresAt ≤ entry.effectiveAt + seconds retryAfter := by
  cases entry.effect with
  | failed _ failed _ _ => rw [failed] at outcome; cases outcome
  | exhausted failed _ _ => rw [failed] at outcome; cases outcome
  | started _ allowed _ _ => rw [allowed] at outcome; cases outcome
  | restarted _ _ allowed _ _ _ => rw [allowed] at outcome; cases outcome
  | counted _ allowed _ _ _ _ => rw [allowed] at outcome; cases outcome
  | refused state valid denial found running same after =>
      rw [denial] at outcome
      obtain rfl : state.retryAfter entry.call.observedAt = retryAfter := by
        injection outcome with outcome
        injection outcome
      have kept := proper entry.call.source state found
      refine ⟨valid, { state with lastSeenAt := state.effectiveAt entry.call.observedAt }, ?_,
        same.1, same.2, ?_⟩
      · rw [after, WebhookRateLimiter.get?_track, if_pos rfl]
      · rw [effectiveAt, found]
        have began : state.startedAt ≤ state.effectiveAt entry.call.observedAt :=
          Nat.le_trans kept.started (Nat.le_max_right _ _)
        show state.expiresAt ≤ state.effectiveAt entry.call.observedAt +
          seconds (state.retryAfter entry.call.observedAt)
        simp only [SourceWindow.retryAfter, SourceWindow.expiresAt, seconds] at running ⊢
        generalize state.effectiveAt entry.call.observedAt = now at *
        generalize state.startedAt = start at *
        have ordered : ∀ now start : Nat, start ≤ now →
          now < start + state.windowSeconds * 1000000 →
            start + state.windowSeconds * 1000000 ≤
              now + max 1 (min ((start + state.windowSeconds * 1000000 - now + 999999) / 1000000)
                state.windowSeconds) * 1000000 := by
          intro now start _ _
          omega
        exact ordered now start began running

theorem allowed_late {state : SourceWindow} (valid : entry.call.validate = .ok ())
    (known : entry.state = some state ∨ entry.state = none)
    (same : state.maxCalls = entry.call.maxCalls ∧ state.windowSeconds = entry.call.windowSeconds)
    (late : state.expiresAt ≤ entry.call.observedAt) :
    entry.outcome = .ok .allowed ∨
      entry.state = none ∧ entry.outcome = .error WebhookRateLimiter.capacityExhausted := by
  have expired (other : SourceWindow) (found : entry.state = some other)
      (running : other.effectiveAt entry.call.observedAt < other.expiresAt) : False := by
    obtain found' | none := known
    · rw [found] at found'
      cases found'
      exact absurd (Nat.lt_of_le_of_lt (Nat.le_max_left _ _) running) (Nat.not_lt.mpr late)
    · rw [none] at found
      cases found
  cases entry.effect with
  | failed reason outcome _ misused =>
      obtain invalid | ⟨other, found, changed⟩ := misused
      · rw [valid] at invalid
        cases invalid
      · obtain found' | none := known
        · rw [found] at found'
          cases found'
          rcases changed with calls | window
          · exact absurd same.1 calls
          · exact absurd same.2 window
        · rw [none] at found
          cases found
  | exhausted outcome untracked _ => exact .inr ⟨untracked, outcome⟩
  | started _ outcome _ _ => exact .inl outcome
  | restarted _ _ outcome _ _ _ => exact .inl outcome
  | counted _ outcome _ _ _ _ => exact .inl outcome
  | refused other _ _ found running _ _ => exact (expired other found running).elim

end RateEntry

theorem latestObserved_ge {entries : List RateEntry} {entry : RateEntry}
    (member : entry ∈ entries) :
    entry.call.observedAt ≤ latestObserved entries := by
  induction entries with
  | nil => cases member
  | cons first rest ih =>
      rw [latestObserved, List.map_cons, List.foldr_cons]
      rcases List.mem_cons.mp member with rfl | later
      · exact Nat.le_max_left _ _
      · exact Nat.le_trans (ih later) (Nat.le_max_right _ _)

section

variable {policy : String → RatePolicy} {limiter : WebhookRateLimiter} {calls : List RateCall}
  {before between after : List RateEntry} {first second : RateEntry}

theorem trace_head (split : first :: after = limiter.trace rest) : first.before = limiter := by
  cases rest with
  | nil => cases split
  | cons call rest => rw [(List.cons.inj split).1]

theorem window_calls_le (proper : limiter.Proper policy)
    (follow : ∀ call ∈ calls, call.Follows policy)
    (split : limiter.trace calls = before ++ first :: (between ++ after)) (starts : first.Starts)
    (within : ∀ entry ∈ between, entry.call.source = first.call.source → ¬entry.Starts) :
    (first :: between).countP (·.allowed first.call.source) ≤
      (policy first.call.source).maxCalls := by
  obtain ⟨proper, follows, rest, later, remaining⟩ :=
    WebhookRateLimiter.trace_split proper follow split
  obtain ⟨last, lastProper, since, _⟩ :=
    WebhookRateLimiter.since_run (RateEntry.proper_after proper follows) later
    (RateEntry.since_start starts) remaining.symm within
  have counted : first.allowed first.call.source = true := by simp [RateEntry.allowed, starts.1]
  rw [List.countP_cons, counted, if_pos rfl, Nat.add_comm]
  unfold WebhookRateLimiter.Since at since
  split at since
  · rename_i state found
    have kept := lastProper _ _ found
    rw [← since.2, ← kept.maxCalls]
    exact kept.calls
  · exact since.1

theorem next_start_late (proper : limiter.Proper policy)
    (follow : ∀ call ∈ calls, call.Follows policy)
    (split : limiter.trace calls = before ++ first :: (between ++ second :: after))
    (starts : first.Starts)
    (within : ∀ entry ∈ between, entry.call.source = first.call.source → ¬entry.Starts)
    (secondStarts : second.Starts) (own : second.call.source = first.call.source) :
    ∃ entry ∈ between ++ [second],
      first.effectiveAt + seconds (policy first.call.source).windowSeconds ≤
        entry.call.observedAt := by
  obtain ⟨proper, follows, rest, later, remaining⟩ :=
    WebhookRateLimiter.trace_split proper follow split
  obtain ⟨last, lastProper, since, others, _, continued⟩ := WebhookRateLimiter.since_run
    (RateEntry.proper_after proper follows) later
      (RateEntry.since_start starts) remaining.symm within
  unfold WebhookRateLimiter.Since at since
  split at since
  · -- The window is still tracked, so the second start found it expired at its own time.
    rename_i state found
    have kept := lastProper _ _ found
    have tracked : second.state = some state := by
      rw [RateEntry.state, own, trace_head continued, found]
    have expired := secondStarts.2 state tracked
    rw [RateEntry.effectiveAt, tracked, Option.map_some, Option.getD_some,
      SourceWindow.effectiveAt] at expired
    refine ⟨second, List.mem_append_right _ List.mem_cons_self, ?_⟩
    rw [← since.1, ← kept.windowSeconds]
    rcases Nat.le_total second.call.observedAt state.lastSeenAt with early | late
    · rw [Nat.max_eq_right early] at expired
      exact absurd kept.running (Nat.not_lt.mpr expired)
    · rw [Nat.max_eq_left late] at expired
      exact expired
  · obtain ⟨_, time, member, late⟩ := since
    rw [List.nil_append, List.mem_map] at member
    obtain ⟨entry, listed, rfl⟩ := member
    exact ⟨entry, List.mem_append_left _ listed, late⟩

theorem waited_allowed {denial call : RateEntry} {retryAfter : Nat} (proper : limiter.Proper policy)
    (follow : ∀ call ∈ calls, call.Follows policy)
    (split : limiter.trace calls = before ++ denial :: (between ++ call :: after))
    (outcome : denial.outcome = .ok (.denied retryAfter))
    (silent : ∀ entry ∈ between, entry.call.source ≠ denial.call.source)
    (own : call.call.source = denial.call.source)
    (late : denial.effectiveAt + seconds retryAfter ≤ call.call.observedAt) :
    call.outcome = .ok .allowed ∨ call.state = none ∧
      call.outcome = .error WebhookRateLimiter.capacityExhausted := by
  obtain ⟨proper, follows, rest, later, remaining⟩ :=
    WebhookRateLimiter.trace_split proper follow split
  obtain ⟨valid, state, found, maxCalls, windowSeconds, expires⟩ := RateEntry.denied proper outcome
  obtain ⟨last, known, others, continued⟩ :=
    WebhookRateLimiter.silent_run (RateEntry.proper_after proper follows) later
    (.inl found) remaining.symm silent
  have callFollows : call.call.Follows policy :=
    (WebhookRateLimiter.trace_split (RateEntry.proper_after proper follows) later
      remaining.symm).2.1
  have policies : call.call.maxCalls = denial.call.maxCalls ∧
      call.call.windowSeconds = denial.call.windowSeconds := by
    refine ⟨callFollows.1.trans ?_, callFollows.2.trans ?_⟩
    · rw [own, follows.1]
    · rw [own, follows.2]
  have callValid : call.call.validate = .ok () := by
    simpa only [RateCall.validate, own, policies.1, policies.2] using valid
  have same := And.intro (maxCalls.trans policies.1.symm) (windowSeconds.trans policies.2.symm)
  refine RateEntry.allowed_late callValid ?_ same (Nat.le_trans expires late)
  rw [RateEntry.state, trace_head continued, own]
  exact known

end

/-- In every sequence of calls with one policy for each source: a window allows at most the calls
of its policy; before the next window of its source starts, some call is observed no earlier than
its end; and a denied source that calls again after the time that it was told is allowed, unless
it was forgotten and other sources take all the room. -/
theorem webhookRate_windows (policy : String → RatePolicy) (maxTrackedSources : Nat)
    (calls : List RateCall) (follow : ∀ call ∈ calls, call.Follows policy) :
    (∀ before first between after,
      (WebhookRateLimiter.empty maxTrackedSources).trace calls =
        before ++ first :: (between ++ after) →
      first.Starts → (∀ entry ∈ between, entry.call.source = first.call.source → ¬entry.Starts) →
        (first :: between).countP (·.allowed first.call.source) ≤
          (policy first.call.source).maxCalls) ∧
    (∀ before first between second after,
      (WebhookRateLimiter.empty maxTrackedSources).trace calls =
        before ++ first :: (between ++ second :: after) →
      first.Starts → (∀ entry ∈ between, entry.call.source = first.call.source → ¬entry.Starts) →
      second.Starts → second.call.source = first.call.source →
        (∃ entry ∈ between ++ [second],
          first.effectiveAt + seconds (policy first.call.source).windowSeconds ≤
            entry.call.observedAt) ∧
        (first.effectiveAt = latestObserved (before ++ [first]) →
          latestObserved (before ++ [first]) + seconds (policy first.call.source).windowSeconds ≤
            latestObserved (before ++ first :: (between ++ [second])))) ∧
    ∀ before denial between call after retryAfter,
      (WebhookRateLimiter.empty maxTrackedSources).trace calls =
        before ++ denial :: (between ++ call :: after) →
      denial.outcome = .ok (.denied retryAfter) →
      (∀ entry ∈ between, entry.call.source ≠ denial.call.source) →
      call.call.source = denial.call.source →
      denial.effectiveAt + seconds retryAfter ≤ call.call.observedAt →
        call.outcome = .ok .allowed ∨
          call.state = none ∧ call.outcome = .error WebhookRateLimiter.capacityExhausted := by
  have fresh : (WebhookRateLimiter.empty maxTrackedSources).Proper policy := nofun
  refine ⟨?_, ?_, ?_⟩
  · intro before first between after split starts within
    exact window_calls_le fresh follow split starts within
  · intro before first between second after split starts within secondStarts own
    have reached := next_start_late fresh follow split starts within secondStarts own
    refine ⟨reached, fun latest => ?_⟩
    obtain ⟨entry, member, late⟩ := reached
    rw [← latest]
    exact Nat.le_trans late
      (latestObserved_ge (List.mem_append_right _ (List.mem_cons_of_mem _ member)))
  · intro before denial between call after retryAfter split outcome silent own late
    exact waited_allowed fresh follow split outcome silent own late

namespace RollbackExample

def policy (_ : String) : RatePolicy := ⟨1, 60⟩

def call (source : String) (second : Nat) : RateCall := ⟨source, seconds second, 1, 60⟩

def rolledBack : List RateCall := [call "first" 1000, call "second" 500, call "second" 560]

def crowded : List RateCall := [call "first" 0, call "first" 1, call "second" 60, call "first" 60]

theorem follows (source : String) (second : Nat) : (call source second).Follows policy := ⟨rfl, rfl⟩

/-- A window of one call. -/
def window (startedAt : Nat) : SourceWindow := ⟨seconds startedAt, seconds startedAt, 1, 1, 60⟩

def firstTracked : WebhookRateLimiter := (WebhookRateLimiter.empty 1024).track "first" (window 1000)

def bothTracked : WebhookRateLimiter := firstTracked.track "second" (window 500)

theorem trace_rolledBack : (WebhookRateLimiter.empty 1024).trace rolledBack =
    [⟨.empty 1024, call "first" 1000⟩, ⟨firstTracked, call "second" 500⟩,
      ⟨bothTracked, call "second" 560⟩] := by
  have started : (WebhookRateLimiter.empty 1024).consume (call "first" 1000) =
      (firstTracked, .ok .allowed) := by
    decide +kernel
  have later : firstTracked.consume (call "second" 500) = (bothTracked, .ok .allowed) := by
    decide +kernel
  simp only [rolledBack, WebhookRateLimiter.trace, started, later]

def crowdedBy (source : String) (state : SourceWindow) : WebhookRateLimiter :=
  (WebhookRateLimiter.empty 1).track source state

theorem trace_crowded : (WebhookRateLimiter.empty 1).trace crowded =
    [⟨.empty 1, call "first" 0⟩, ⟨crowdedBy "first" (window 0), call "first" 1⟩,
      ⟨crowdedBy "first" { window 0 with lastSeenAt := seconds 1 }, call "second" 60⟩,
      ⟨crowdedBy "second" (window 60), call "first" 60⟩] := by
  have started : (WebhookRateLimiter.empty 1).consume (call "first" 0) =
      (crowdedBy "first" (window 0), .ok .allowed) := by decide +kernel
  have refused : (crowdedBy "first" (window 0)).consume (call "first" 1) =
      (crowdedBy "first" { window 0 with lastSeenAt := seconds 1 }, .ok (.denied 59)) := by
        decide +kernel
  have forgotten : (crowdedBy "first" { window 0 with lastSeenAt := seconds 1 }).consume
    (call "second" 60) =
      (crowdedBy "second" (window 60), .ok .allowed) := by decide +kernel
  simp only [crowded, WebhookRateLimiter.trace, started, refused, forgotten]

theorem starts_of {entry : RateEntry} (allowed : entry.outcome = .ok .allowed)
    (expired : entry.state.all (fun state => state.expiresAt ≤ entry.effectiveAt) = true) :
      entry.Starts := by
  refine ⟨allowed, fun state found => ?_⟩
  rw [Option.mem_def.mp found, Option.all_some, decide_eq_true_eq] at expired
  exact expired

theorem second_starts : (⟨firstTracked, call "second" 500⟩ : RateEntry).Starts :=
  starts_of (by decide +kernel) (by decide +kernel)

theorem restarts : (⟨bothTracked, call "second" 560⟩ : RateEntry).Starts :=
  starts_of (by decide +kernel) (by decide +kernel)

end RollbackExample

open RollbackExample in
/-- Two windows of a source may start below the latest time that another source was observed at,
and a source that waited may find no room. -/
theorem webhookRate_rolledBack :
    (∃ before first second, (WebhookRateLimiter.empty 1024).trace rolledBack =
      before ++ [first, second] ∧
      first.Starts ∧ second.Starts ∧ second.call.source = first.call.source ∧
      latestObserved (before ++ [first, second]) = latestObserved (before ++ [first])) ∧
    ∃ before denial between last, (WebhookRateLimiter.empty 1).trace crowded =
      before ++ [denial, between, last] ∧
      denial.outcome = .ok (.denied 59) ∧ between.call.source ≠ denial.call.source ∧
      last.call.source = denial.call.source ∧ denial.effectiveAt + seconds 59 ≤
        last.call.observedAt ∧
      last.outcome = .error WebhookRateLimiter.capacityExhausted := by
  rw [trace_rolledBack, trace_crowded]
  constructor
  · exact ⟨[_], _, _, rfl, second_starts, restarts, rfl, by decide +kernel⟩
  · exact ⟨[_], _, _, _, rfl, by decide +kernel, by decide, rfl, by decide +kernel,
      by decide +kernel⟩

open RollbackExample in
theorem webhookRate_windows_rolledBack :
    ∃ before first second, (WebhookRateLimiter.empty 1024).trace rolledBack =
      before ++ [first, second] ∧
      first.Starts ∧ second.Starts ∧ ∃ entry ∈ [second],
        first.effectiveAt + seconds 60 ≤ entry.call.observedAt := by
  have follow : ∀ call ∈ rolledBack, call.Follows policy := by
    simp only [rolledBack, List.forall_mem_cons]
    exact ⟨follows _ _, follows _ _, follows _ _, List.forall_mem_nil _⟩
  refine ⟨[_], _, _, trace_rolledBack, second_starts, restarts, ?_⟩
  exact ((webhookRate_windows policy 1024 rolledBack follow).2.1 [_] _ [] _
    [] trace_rolledBack second_starts (by simp) restarts rfl).1

end MarketingAgents
