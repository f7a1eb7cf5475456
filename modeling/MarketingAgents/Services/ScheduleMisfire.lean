import Mathlib.Data.Set.Card
import Mathlib.Order.Bounds.Basic
import MarketingAgents.Domain.ScheduleOccurrences
import MarketingAgents.Services.ScheduleConfiguration

namespace MarketingAgents

/-! # Misfire planning

What becomes of a claimed due instant: it runs on time, or the instants missed
up to the claim are counted and coalesced into one decision.
-/

/-- A planner whose limit is one through the safe maximum. -/
structure ScheduleMisfirePlanner where
  recurrence : RecurrenceCalculator
  maxCoalescedOccurrences : Nat
  positive : 1 ≤ maxCoalescedOccurrences
  bounded : maxCoalescedOccurrences ≤ maxCoalescedMissedOccurrences

def validateClaimSnapshot (schedule : Schedule) (claim : ScheduleClaim) :
    Except Rejection Unit := do
  require (schedule.id = claim.scheduleId)
    "claim_schedule_mismatch" "schedule claim identifies another schedule"
  require (schedule.nextRunAtUtc = claim.scheduledForUtc)
    "claim_due_mismatch" "schedule claim identifies another persisted due instant"
  require (schedule.recurrenceVersion = claim.recurrenceVersion)
    "claim_recurrence_mismatch" "schedule claim identifies another recurrence version"
  require (schedule.version = claim.version)
    "claim_version_mismatch" "schedule claim identifies another fencing version"

/-- A failed calculation keeps one of two stable codes. -/
def orMisfire {α : Type} (calculated : Except Rejection α) : Except Rejection α :=
  match calculated with
  | .ok value => .ok value
  | .error reason =>
      if reason.code = "ValueError" then
        reject "recurrence_contract_error"
          "schedule recurrence failed its bounded calculation contract"
      else
        reject "recurrence_calculation_failed"
          "schedule recurrence could not produce a bounded future instant"

def misfireRangeExhausted : Rejection where
  code := "misfire_range_exhausted"
  message := "missed schedule range exceeds the safe coalescing limit"

def MisfirePolicy.disposition : MisfirePolicy → ScheduleDisposition
  | skip => .skip
  | runOnce => .runOnce

/-- A plan is built by its own constructor. -/
def ScheduleOccurrencePlan.build (zones : ZoneSupport) (plan : ScheduleOccurrencePlan) :
    Except Rejection ScheduleOccurrencePlan := do
  plan.validate zones
  return plan

namespace ScheduleMisfirePlanner

variable (planner : ScheduleMisfirePlanner) (zones : ZoneSupport) (schedule : Schedule)
  (claim : ScheduleClaim)
variable (recordResolution : Bool)

def calculate (afterUtc : Time) : Except Rejection (Time × Option RecurrenceResult) :=
  if recordResolution then do
    let result ← planner.recurrence.nextOccurrenceAfter schedule.cron schedule.timezone afterUtc
    require (∀ resolution ∈ result.resolution, resolution.timezone = schedule.timezone)
      "ValueError" "recurrence result changed its original timezone"
    return (result.scheduledForUtc, some result)
  else do
    let candidate ← planner.recurrence.nextAfter schedule.cron schedule.timezone afterUtc
    return (candidate, none)

def nextSelection (afterUtc : Time) : Except Rejection (Time × Option RecurrenceResult) := do
  let (candidate, result) ← orMisfire (planner.calculate schedule recordResolution afterUtc)
  require (afterUtc < candidate)
    "recurrence_contract_error" "schedule recurrence must advance strictly beyond its boundary"
  return (candidate, result)

def scheduledRecurrence : Option RecurrenceResult :=
  if recordResolution then schedule.nextRecurrence else none

def recorded (resolutions : List RecurrenceResolution) : Option (List RecurrenceResolution) :=
  if recordResolution then some resolutions else none

/-- A plan without missed instants. -/
def onTimePlan (nextAt : Time) (nextRecurrence : Option RecurrenceResult)
    (resolutions : List RecurrenceResolution) : ScheduleOccurrencePlan where
  scheduleId := schedule.id
  scheduledForUtc := claim.scheduledForUtc
  recurrenceVersion := schedule.recurrenceVersion
  disposition := .onTime
  nextRunAtUtc := nextAt
  scheduledRecurrence := scheduledRecurrence schedule recordResolution
  nextRecurrence
  recurrenceResolutions := recorded recordResolution resolutions

/-- A plan that coalesces the missed instants. -/
def missedPlan (nextAt lastMissedAtUtc : Time) (missedCount : Nat)
    (nextRecurrence : Option RecurrenceResult)
    (resolutions : List RecurrenceResolution) : ScheduleOccurrencePlan where
  scheduleId := schedule.id
  scheduledForUtc := claim.scheduledForUtc
  recurrenceVersion := schedule.recurrenceVersion
  disposition := schedule.misfirePolicy.disposition
  nextRunAtUtc := nextAt
  firstMissedAtUtc := some claim.scheduledForUtc
  lastMissedAtUtc := some lastMissedAtUtc
  missedCount := some missedCount
  scheduledRecurrence := scheduledRecurrence schedule recordResolution
  nextRecurrence
  recurrenceResolutions := recorded recordResolution resolutions

/-- Advance through the missed instants, at most as often as the limit allows. -/
def coalesce : Nat → Time → Nat → List RecurrenceResolution →
    Except Rejection ScheduleOccurrencePlan
  | 0, _, _, _ => .error misfireRangeExhausted
  | fuel + 1, lastMissedAtUtc, missedCount, resolutions => do
      let (candidate, nextRecurrence) ← planner.nextSelection schedule recordResolution
        lastMissedAtUtc
      if claim.claimedAtUtc < candidate then
        (missedPlan schedule claim recordResolution candidate lastMissedAtUtc missedCount
          nextRecurrence resolutions).build zones
      else if missedCount = planner.maxCoalescedOccurrences then .error misfireRangeExhausted
      else
        coalesce fuel candidate (missedCount + 1)
          (resolutions ++ (nextRecurrence.bind (·.resolution)).toList)

def resolve : Except Rejection ScheduleOccurrencePlan := do
  validateClaimSnapshot schedule claim
  let resolutions := ((scheduledRecurrence schedule recordResolution).bind (·.resolution)).toList
  if claim.claimedAtUtc - claim.scheduledForUtc ≤ seconds schedule.misfireGraceSeconds then
    let (nextAt, nextRecurrence) ← planner.nextSelection schedule recordResolution
      claim.scheduledForUtc
    (onTimePlan schedule claim recordResolution nextAt nextRecurrence resolutions).build zones
  else
    planner.coalesce zones schedule claim recordResolution planner.maxCoalescedOccurrences
      claim.scheduledForUtc 1 resolutions

end ScheduleMisfirePlanner

namespace RecurrenceCalculator

variable (recurrence : RecurrenceCalculator) (zones : ZoneSupport) (cron timezone : String)

/-- Every calculation yields a selection of the same timezone behind its boundary. -/
def Advances : Prop :=
  ∀ afterUtc, ∃ result, recurrence.nextOccurrenceAfter cron timezone afterUtc = .ok result ∧
    result.validate zones = .ok () ∧
      (∀ resolution ∈ result.resolution, resolution.timezone = timezone) ∧
    afterUtc < result.scheduledForUtc

/-- The instants of a recurrence from its due time, one after the other. -/
def occurrence (due : Time) : Nat → Time
  | 0 => due
  | index + 1 =>
      match recurrence.nextAfter cron timezone (occurrence due index) with
      | .ok next => next
      | .error _ => occurrence due index

def occurrences (due : Time) : Set Time := Set.range (recurrence.occurrence cron timezone due)

section

variable {recurrence zones cron timezone} {due boundary : Time}

theorem Advances.next (advances : recurrence.Advances zones cron timezone) (due : Time)
    (index : Nat) :
    ∃ result, recurrence.nextOccurrenceAfter cron timezone
      (recurrence.occurrence cron timezone due index) = .ok result ∧
      result.validate zones = .ok () ∧
      (∀ resolution ∈ result.resolution, resolution.timezone = timezone) ∧
      result.scheduledForUtc = recurrence.occurrence cron timezone due (index + 1) ∧
      recurrence.occurrence cron timezone due index <
        recurrence.occurrence cron timezone due (index + 1) := by
  obtain ⟨result, calculated, valid, zone, later⟩ :=
    advances (recurrence.occurrence cron timezone due index)
  have same : recurrence.occurrence cron timezone due (index + 1) = result.scheduledForUtc := by
    rw [occurrence, nextAfter, calculated]
    rfl
  exact ⟨result, calculated, valid, zone, same.symm, same ▸ later⟩

theorem Advances.strictMono (advances : recurrence.Advances zones cron timezone) :
    StrictMono (recurrence.occurrence cron timezone due) := by
  apply strictMono_nat_of_lt_succ
  intro index
  obtain ⟨_, _, _, _, _, later⟩ := advances.next due index
  exact later

/-- The occurrences up to a boundary that two neighbours enclose. -/
theorem Advances.enclosed (advances : recurrence.Advances zones cron timezone) {index : Nat}
    (before : recurrence.occurrence cron timezone due index ≤ boundary)
    (after : boundary < recurrence.occurrence cron timezone due (index + 1)) :
    {instant ∈ recurrence.occurrences cron timezone due |
      due ≤ instant ∧ instant ≤ boundary}.ncard = index + 1 ∧
      IsGreatest {instant ∈ recurrence.occurrences cron timezone due | instant ≤ boundary}
        (recurrence.occurrence cron timezone due index) ∧
      IsLeast {instant ∈ recurrence.occurrences cron timezone due | boundary < instant}
        (recurrence.occurrence cron timezone due (index + 1)) := by
  have ordered : StrictMono (recurrence.occurrence cron timezone due) := advances.strictMono
  have passed (other : Nat) : recurrence.occurrence cron timezone due other ≤ boundary ↔
      other < index + 1 := by
    constructor
    · intro early
      exact ordered.lt_iff_lt.mp (Nat.lt_of_le_of_lt early after)
    · intro early
      exact (ordered.monotone (Nat.le_of_lt_succ early)).trans before
  refine ⟨?_, ⟨⟨⟨index, rfl⟩, before⟩, ?_⟩, ⟨⟨⟨index + 1, rfl⟩, after⟩, ?_⟩⟩
  · have image : {instant ∈ recurrence.occurrences cron timezone due |
      due ≤ instant ∧ instant ≤ boundary} =
        recurrence.occurrence cron timezone due '' Set.Iio (index + 1) := by
      ext instant
      constructor
      · intro inside
        obtain ⟨⟨other, rfl⟩, _, early⟩ := inside
        exact ⟨other, (passed other).mp early, rfl⟩
      · intro inside
        obtain ⟨other, early, rfl⟩ := inside
        exact ⟨⟨other, rfl⟩, ordered.monotone (Nat.zero_le other), (passed other).mpr early⟩
    rw [image, Set.ncard_image_of_injective _ ordered.injective]
    rw [← Finset.coe_range, Set.ncard_coe_finset, Finset.card_range]
  · intro instant inside
    obtain ⟨⟨other, rfl⟩, early⟩ := inside
    exact ordered.monotone (Nat.le_of_lt_succ ((passed other).mp early))
  · intro instant inside
    obtain ⟨⟨other, rfl⟩, late⟩ := inside
    apply ordered.monotone
    by_contra early
    exact absurd ((passed other).mpr (by omega)) (Nat.not_le.mpr late)

theorem Advances.enclosing (advances : recurrence.Advances zones cron timezone)
    (begun : due ≤ boundary) :
    ∃ index, recurrence.occurrence cron timezone due index ≤ boundary ∧
      boundary < recurrence.occurrence cron timezone due (index + 1) := by
  have ordered : StrictMono (recurrence.occurrence cron timezone due) := advances.strictMono
  have escapes : ∃ index, boundary < recurrence.occurrence cron timezone due index :=
    ⟨boundary + 1, Nat.lt_of_lt_of_le (Nat.lt_succ_self boundary) (ordered.le_apply)⟩
  cases found : Nat.find escapes with
  | zero =>
      have first := Nat.find_spec escapes
      rw [found] at first
      exact absurd first (Nat.not_lt.mpr begun)
  | succ index =>
      have first := Nat.find_spec escapes
      rw [found] at first
      refine ⟨index, ?_, first⟩
      apply Nat.le_of_not_lt
      apply Nat.find_min escapes
      omega

end

end RecurrenceCalculator

/-- The evidence of the occurrences from the due time to a later one. -/
structure RangeEvidence (timezone : String) (scheduled : Option RecurrenceResult)
    (due last : Time) (count : Nat) (resolutions : List RecurrenceResolution) : Prop where
  ordered : (resolutions.map (·.resolvedAtUtc)).Pairwise (· < ·)
  inside : ∀ resolution ∈ resolutions, due ≤ resolution.resolvedAtUtc ∧
    resolution.resolvedAtUtc ≤ last
  pending : resolutions.filter (fun resolution => resolution.resolvedAtUtc = due) =
    (scheduled.bind (·.resolution)).toList
  zone : ∀ resolution ∈ resolutions, resolution.timezone = timezone
  bounded : resolutions.length ≤ count

section

variable {zones : ZoneSupport} {timezone : String} {scheduled : Option RecurrenceResult}
  {due last : Time} {count : Nat}
variable {resolutions : List RecurrenceResolution} {next : RecurrenceResult}

theorem resolvedAt_of_valid (valid : next.validate zones = .ok ()) :
    ∀ resolution ∈ next.resolution, resolution.resolvedAtUtc = next.scheduledForUtc := by
  intro resolution present
  rw [RecurrenceResult.validate, requireOptional_ok] at valid
  have checked := valid resolution present
  simp only [bind_ok, require_ok] at checked
  obtain ⟨_, _, same⟩ := checked
  exact same

theorem RangeEvidence.start (valid : ∀ selected ∈ scheduled, selected.validate zones = .ok () ∧
    selected.scheduledForUtc = due ∧ ∀ resolution ∈ selected.resolution,
      resolution.timezone = timezone) :
    RangeEvidence timezone scheduled due due 1 (scheduled.bind (·.resolution)).toList := by
  have each : ∀ resolution ∈ (scheduled.bind (·.resolution)).toList,
      resolution.resolvedAtUtc = due ∧ resolution.timezone = timezone := by
    intro resolution listed
    obtain ⟨selected, chosen, present⟩ := Option.bind_eq_some_iff.mp (Option.mem_toList.mp listed)
    obtain ⟨checked, instant, zone⟩ := valid selected chosen
    exact ⟨(resolvedAt_of_valid checked resolution present).trans instant, zone resolution present⟩
  refine ⟨?_, ?_, ?_, fun resolution listed => (each resolution listed).2, ?_⟩
  · cases scheduled.bind (·.resolution) <;> simp
  · intro resolution listed
    rw [(each resolution listed).1]
    exact ⟨Nat.le_refl _, Nat.le_refl _⟩
  · rw [List.filter_eq_self]
    intro resolution listed
    exact decide_eq_true (each resolution listed).1
  · cases scheduled.bind (·.resolution) <;> simp

theorem RangeEvidence.later {instant : Time}
    (evidence : RangeEvidence timezone scheduled due last count resolutions)
    (later : last < instant) :
    RangeEvidence timezone scheduled due instant (count + 1) resolutions := by
  refine { evidence with
    inside := fun resolution listed => ?_, bounded := Nat.le_succ_of_le evidence.bounded }
  obtain ⟨first, second⟩ := evidence.inside resolution listed
  exact ⟨first, second.trans (Nat.le_of_lt later)⟩

/-- One more selection behind the range adds its evidence. -/
theorem RangeEvidence.advance
    (evidence : RangeEvidence timezone scheduled due last count resolutions)
    (begun : due ≤ last) (valid : next.validate zones = .ok ())
    (zone : ∀ resolution ∈ next.resolution, resolution.timezone = timezone)
    (later : last < next.scheduledForUtc) :
    RangeEvidence timezone scheduled due next.scheduledForUtc (count + 1)
      (resolutions ++ next.resolution.toList) := by
  have instant := resolvedAt_of_valid valid
  cases given : next.resolution with
  | none =>
      rw [Option.toList_none, List.append_nil]
      exact evidence.later later
  | some resolution =>
      have resolved := instant resolution given
      have own := zone resolution given
      rw [Option.toList_some]
      refine ⟨?_, ?_, ?_, ?_, ?_⟩
      · rw [List.map_append, List.pairwise_append]
        refine ⟨evidence.ordered, List.pairwise_singleton _ _, ?_⟩
        intro left leftListed right rightListed
        obtain ⟨known, listed, rfl⟩ := List.mem_map.mp leftListed
        rw [List.map_cons, List.map_nil, List.mem_singleton] at rightListed
        rw [rightListed, resolved]
        exact Nat.lt_of_le_of_lt (evidence.inside known listed).2 later
      · intro known listed
        rcases List.mem_append.mp listed with old | new
        · obtain ⟨first, second⟩ := evidence.inside known old
          exact ⟨first, second.trans (Nat.le_of_lt later)⟩
        · rw [List.mem_singleton.mp new, resolved]
          exact ⟨begun.trans (Nat.le_of_lt later), Nat.le_refl _⟩
      · have behind : resolution.resolvedAtUtc ≠ due := by
          rw [resolved]
          exact Nat.ne_of_gt (Nat.lt_of_le_of_lt begun later)
        rw [List.filter_append, evidence.pending]
        simp [behind]
      · intro known listed
        rcases List.mem_append.mp listed with old | new
        · exact evidence.zone known old
        · rw [List.mem_singleton.mp new]
          exact own
      · rw [List.length_append]
        exact Nat.add_le_add_right evidence.bounded 1

theorem RangeEvidence.extend {instant : Time} {found : Option RecurrenceResult}
    (evidence : RangeEvidence timezone scheduled due last count resolutions) (begun : due ≤ last)
    (later : last < instant)
    (valid : ∀ next ∈ found, next.validate zones = .ok () ∧
      (∀ resolution ∈ next.resolution, resolution.timezone = timezone) ∧
        next.scheduledForUtc = instant) :
    RangeEvidence timezone scheduled due instant (count + 1)
      (resolutions ++ (found.bind (·.resolution)).toList) := by
  cases found with
  | none =>
      rw [Option.bind_none, Option.toList_none, List.append_nil]
      exact evidence.later later
  | some next =>
      obtain ⟨checked, zone, rfl⟩ := valid next rfl
      exact evidence.advance begun checked zone later

theorem validate_recorded {range : RecurrenceRange} (following : range.nextRecurrence = some next)
    (recorded : range.recurrenceResolutions = some resolutions) : range.validate = .ok () ↔
      (∀ selected ∈ range.scheduledRecurrence, range.validateScheduled selected = .ok ()) ∧
        range.validateProcessed next resolutions = .ok () := by
  unfold RecurrenceRange.validate
  rw [following, recorded]
  cases range.scheduledRecurrence with
  | none => simp [requireOptional, bind, Except.bind]
  | some selected => simp [requireOptional, bind_ok, Unique.exists_iff]

theorem RangeEvidence.validate
    (evidence : RangeEvidence timezone scheduled due last count resolutions)
    (chosen : ∀ selected ∈ scheduled, selected.scheduledForUtc = due)
    (zone : ∀ resolution ∈ next.resolution, resolution.timezone = timezone)
    (later : last < next.scheduledForUtc)
    (small : count ≤ maxRecordedRecurrenceResolutions) {lastMissed : Option Time}
    (ends : lastMissed.getD due = last) :
    RecurrenceRange.validate {
      scheduledForUtc := due
      scheduledRecurrence := scheduled
      nextRecurrence := some next
      recurrenceResolutions := some resolutions
      lastMissedAtUtc := lastMissed
      nextRunAtUtc := some next.scheduledForUtc } = .ok () := by
  have zones : ∀ zone ∈ (resolutions ++ next.resolution.toList).map (·.timezone),
      zone = timezone := by
    intro name listed
    obtain ⟨resolution, member, rfl⟩ := List.mem_map.mp listed
    rcases List.mem_append.mp member with old | new
    · exact evidence.zone resolution old
    · exact zone resolution (Option.mem_toList.mp new)
  refine (validate_recorded rfl rfl).mpr ⟨fun selected present => ?_, ?_⟩
  · simp only [RecurrenceRange.validateScheduled, bind_ok, require_ok]
    refine ⟨(), chosen selected present, fun name absent => ?_⟩
    cases absent
  · simp only [RecurrenceRange.validateProcessed, validateRecurrenceResolutions, bind_ok,
      require_ok, ends]
    refine ⟨(), ⟨(), evidence.bounded.trans small, evidence.ordered⟩, (), later, (), ?_, (),
      evidence.inside, (), evidence.pending, (), ?_, ?_⟩
    · intro instant present
      exact Option.some.inj present
    · intro left leftListed right rightListed
      exact (zones left leftListed).trans (zones right rightListed).symm
    · intro name absent
      cases absent

end

namespace ScheduleMisfirePlanner

variable {planner : ScheduleMisfirePlanner} {zones : ZoneSupport} {schedule : Schedule}
  {claim : ScheduleClaim}
variable {recordResolution : Bool}

theorem orMisfire_ok {α : Type} {calculated : Except Rejection α} {value : α} :
    orMisfire calculated = .ok value ↔ calculated = .ok value := by
  cases calculated with
  | ok found => simp [orMisfire]
  | error reason =>
      simp only [orMisfire]
      split <;> simp [reject]

theorem nextSelection_ok (recordResolution : Bool)
    (advances : planner.recurrence.Advances zones schedule.cron schedule.timezone) (due : Time)
    (index : Nat) : ∃ result : RecurrenceResult,
      planner.nextSelection schedule recordResolution
          (planner.recurrence.occurrence schedule.cron schedule.timezone due index) =
        .ok (planner.recurrence.occurrence schedule.cron schedule.timezone due (index + 1),
          if recordResolution then some result else none) ∧
      result.validate zones = .ok () ∧
      (∀ resolution ∈ result.resolution, resolution.timezone = schedule.timezone) ∧
      result.scheduledForUtc = planner.recurrence.occurrence schedule.cron schedule.timezone due
        (index + 1) := by
  obtain ⟨result, calculated, valid, zone, instant, later⟩ := advances.next due index
  refine ⟨result, ?_, valid, zone, instant⟩
  simp only [nextSelection, bind_ok, orMisfire_ok, require_ok, pure_ok]
  refine ⟨(planner.recurrence.occurrence schedule.cron schedule.timezone due (index + 1),
    if recordResolution then some result else none), ?_, (), later, rfl⟩
  cases recordResolution with
  | true =>
      simp only [calculate, if_true, bind_ok, require_ok, pure_ok]
      exact ⟨result, calculated, (), zone, by rw [instant]⟩
  | false =>
      simp only [calculate, Bool.false_eq_true, if_false, RecurrenceCalculator.nextAfter,
        bind_ok, pure_ok]
      exact ⟨result.scheduledForUtc, ⟨result, calculated, rfl⟩, by rw [instant]⟩

theorem scheduledRecurrence_valid (recordResolution : Bool)
    (valid : schedule.validate zones = .ok ()) :
    ∀ selected ∈ scheduledRecurrence schedule recordResolution, selected.validate zones = .ok () ∧
      selected.scheduledForUtc = schedule.nextRunAtUtc ∧
      ∀ resolution ∈ selected.resolution, resolution.timezone = schedule.timezone := by
  intro selected chosen
  have kept : selected ∈ schedule.nextRecurrence := by
    cases recordResolution with
    | true => exact chosen
    | false => cases chosen
  simp only [Schedule.validate, bind_ok, requireOptional_ok, require_ok] at valid
  obtain ⟨_, _, _, _, _, _, _, _, _, _, _, _, _, _, _, _, _, _, _, recurrence, _⟩ := valid
  obtain ⟨_, checked, _, instant, zone⟩ := recurrence selected kept
  exact ⟨checked, instant, zone⟩

theorem range_valid {timezone : String} {due last : Time} {count : Nat}
    {next : RecurrenceResult} {lastMissed : Option Time}
    (evidence : RangeEvidence timezone (scheduledRecurrence schedule recordResolution) due last
      count resolutions)
    (chosen : ∀ selected ∈ scheduledRecurrence schedule recordResolution,
      selected.scheduledForUtc = due)
    (zone : ∀ resolution ∈ next.resolution, resolution.timezone = timezone)
    (later : last < next.scheduledForUtc)
    (small : count ≤ maxRecordedRecurrenceResolutions) (ends : lastMissed.getD due = last) :
    RecurrenceRange.validate {
      scheduledForUtc := due
      scheduledRecurrence := scheduledRecurrence schedule recordResolution
      nextRecurrence := if recordResolution then some next else none
      recurrenceResolutions := recorded recordResolution resolutions
      lastMissedAtUtc := lastMissed
      nextRunAtUtc := some next.scheduledForUtc } = .ok () := by
  cases recordResolution with
  | true => exact evidence.validate chosen zone later small ends
  | false => rfl

/-- The occurrences from the due time of a claim. -/
abbrev instant (planner : ScheduleMisfirePlanner) (schedule : Schedule) (claim : ScheduleClaim)
    (index : Nat) : Time :=
  planner.recurrence.occurrence schedule.cron schedule.timezone claim.scheduledForUtc index

/-- A valid plan that coalesces the occurrences up to the last one that a claim missed. -/
structure Coalesced (planner : ScheduleMisfirePlanner) (zones : ZoneSupport) (schedule : Schedule)
    (claim : ScheduleClaim) (plan : ScheduleOccurrencePlan) (last : Nat) : Prop where
  within : last < planner.maxCoalescedOccurrences
  passed : planner.instant schedule claim last ≤ claim.claimedAtUtc
  ahead : claim.claimedAtUtc < planner.instant schedule claim (last + 1)
  valid : plan.validate zones = .ok ()
  disposition : plan.disposition = schedule.misfirePolicy.disposition
  next : plan.nextRunAtUtc = planner.instant schedule claim (last + 1)
  firstMissed : plan.firstMissedAtUtc = some claim.scheduledForUtc
  lastMissed : plan.lastMissedAtUtc = some (planner.instant schedule claim last)
  missedCount : plan.missedCount = some (last + 1)

theorem build_ok {plan : ScheduleOccurrencePlan} (valid : plan.validate zones = .ok ()) :
    plan.build zones = .ok plan := by
  simp only [ScheduleOccurrencePlan.build, valid, bind, Except.bind, pure, Except.pure]

theorem plan_valid {plan : ScheduleOccurrencePlan} (valid : schedule.validate zones = .ok ())
    (id : plan.scheduleId = schedule.id)
    (version : plan.recurrenceVersion = schedule.recurrenceVersion)
    (later : plan.scheduledForUtc < plan.nextRunAtUtc)
    (range : RecurrenceRange.validate {
      scheduledForUtc := plan.scheduledForUtc
      scheduledRecurrence := plan.scheduledRecurrence
      nextRecurrence := plan.nextRecurrence
      recurrenceResolutions := plan.recurrenceResolutions
      lastMissedAtUtc := plan.lastMissedAtUtc
      nextRunAtUtc := some plan.nextRunAtUtc } = .ok ())
    (missed : plan.disposition = .onTime ∧ plan.firstMissedAtUtc = none ∧
      plan.lastMissedAtUtc = none ∧
        plan.missedCount = none ∨
      plan.disposition ≠ .onTime ∧ ∃ first last count, plan.firstMissedAtUtc = some first ∧
        plan.lastMissedAtUtc = some last ∧ plan.missedCount = some count ∧
        plan.validateMissed first last count = .ok ()) :
    plan.validate zones = .ok () := by
  simp only [Schedule.validate, bind_ok] at valid
  obtain ⟨_, named, _, _, _, _, _, _, _, versioned, _, bounded, _⟩ := valid
  simp only [ScheduleOccurrencePlan.validate, bind_ok, require_ok]
  refine ⟨(), id ▸ requireId_ok _ named, (), version ▸ requireId_ok _ versioned, (), ?_, (), later,
    (), range, ?_⟩
  · rw [version]
    rw [requireText, require_ok] at bounded ⊢
    exact bounded
  · rcases missed with ⟨onTime, absent⟩ |
      ⟨late, first, last, count, firstSome, lastSome, countSome, checked⟩
    · rw [if_pos onTime, require_ok]
      exact absent
    · rw [if_neg late, firstSome, lastSome, countSome]
      exact checked

theorem disposition_ne_onTime (policy : MisfirePolicy) : policy.disposition ≠ .onTime := by
  cases policy <;> decide

section

variable {result : RecurrenceResult} {resolutions : List RecurrenceResolution}
  {last : Time} {count : Nat}

theorem missedPlan_valid (valid : schedule.validate zones = .ok ())
    (due : schedule.nextRunAtUtc = claim.scheduledForUtc) (begun : claim.scheduledForUtc ≤ last)
    (evidence : RangeEvidence schedule.timezone
      (scheduledRecurrence schedule recordResolution) claim.scheduledForUtc last count resolutions)
    (zone : ∀ resolution ∈ result.resolution, resolution.timezone = schedule.timezone)
    (later : last < result.scheduledForUtc) (positive : 1 ≤ count)
    (small : count ≤ maxCoalescedMissedOccurrences)
    (single : count = 1 ↔ last = claim.scheduledForUtc) :
    (missedPlan schedule claim recordResolution result.scheduledForUtc last count
      (if recordResolution then some result else none) resolutions).validate zones = .ok () := by
  have chosen : ∀ known ∈ scheduledRecurrence schedule recordResolution,
      known.scheduledForUtc = claim.scheduledForUtc := fun known present =>
    (scheduledRecurrence_valid recordResolution valid known present).2.1.trans due
  have range := range_valid evidence chosen zone later small
    (rfl : (some last).getD claim.scheduledForUtc = last)
  refine plan_valid valid rfl rfl (Nat.lt_of_le_of_lt begun later) range (.inr ?_)
  refine ⟨disposition_ne_onTime _, _, _, _, rfl, rfl, rfl, ?_⟩
  simp only [ScheduleOccurrencePlan.validateMissed, bind_ok, require_ok]
  exact ⟨(), rfl, (), begun, (), later, (), ⟨positive, small⟩, single⟩

theorem onTimePlan_valid (valid : schedule.validate zones = .ok ())
    (due : schedule.nextRunAtUtc = claim.scheduledForUtc)
    (evidence : RangeEvidence schedule.timezone
      (scheduledRecurrence schedule recordResolution) claim.scheduledForUtc
      claim.scheduledForUtc 1 resolutions)
    (zone : ∀ resolution ∈ result.resolution, resolution.timezone = schedule.timezone)
    (later : claim.scheduledForUtc < result.scheduledForUtc) :
    (onTimePlan schedule claim recordResolution result.scheduledForUtc
      (if recordResolution then some result else none) resolutions).validate zones = .ok () := by
  have chosen : ∀ known ∈ scheduledRecurrence schedule recordResolution,
      known.scheduledForUtc = claim.scheduledForUtc := fun known present =>
    (scheduledRecurrence_valid recordResolution valid known present).2.1.trans due
  have range := range_valid evidence chosen zone later (by decide)
    (rfl : (none : Option Time).getD claim.scheduledForUtc = claim.scheduledForUtc)
  exact plan_valid valid rfl rfl later range (.inl ⟨rfl, rfl, rfl, rfl⟩)

end

theorem due_of_claimed (claimed : validateClaimSnapshot schedule claim = .ok ()) :
    schedule.nextRunAtUtc = claim.scheduledForUtc := by
  simp only [validateClaimSnapshot, bind_ok, require_ok] at claimed
  obtain ⟨_, _, _, due, _⟩ := claimed
  exact due

theorem started (recordResolution : Bool) (valid : schedule.validate zones = .ok ())
    (due : schedule.nextRunAtUtc = claim.scheduledForUtc) :
    RangeEvidence schedule.timezone (scheduledRecurrence schedule recordResolution)
      claim.scheduledForUtc
      claim.scheduledForUtc 1 ((scheduledRecurrence schedule recordResolution).bind
        (·.resolution)).toList := by
  have kept := scheduledRecurrence_valid recordResolution valid
  rw [due] at kept
  exact RangeEvidence.start kept

/-- From an occurrence that is passed, either the plan of the missed range is reached or the limit
is. -/
theorem coalesce_cases
    (advances : planner.recurrence.Advances zones schedule.cron schedule.timezone)
    (valid : schedule.validate zones = .ok ()) (due : schedule.nextRunAtUtc = claim.scheduledForUtc)
    (fuel index : Nat) (resolutions : List RecurrenceResolution)
    (remaining : index + fuel = planner.maxCoalescedOccurrences)
    (passed : planner.instant schedule claim index ≤ claim.claimedAtUtc)
    (evidence : RangeEvidence schedule.timezone
      (scheduledRecurrence schedule recordResolution) claim.scheduledForUtc
      (planner.instant schedule claim index) (index + 1) resolutions) :
    (∃ last plan, planner.coalesce zones schedule claim recordResolution fuel
      (planner.instant schedule claim index)
        (index + 1) resolutions = .ok plan ∧ planner.Coalesced zones schedule claim plan last) ∨
      planner.instant schedule claim planner.maxCoalescedOccurrences ≤ claim.claimedAtUtc ∧
        planner.coalesce zones schedule claim recordResolution fuel
          (planner.instant schedule claim index)
          (index + 1) resolutions = .error misfireRangeExhausted := by
  induction fuel generalizing index resolutions with
  | zero =>
      right
      rw [← remaining]
      exact ⟨passed, rfl⟩
  | succ fuel ih =>
      obtain ⟨result, selected, checked, zone, scheduled⟩ :=
        nextSelection_ok recordResolution advances claim.scheduledForUtc index
      have ordered : StrictMono (planner.instant schedule claim) := advances.strictMono
      have following : result.scheduledForUtc = planner.instant schedule claim (index + 1) :=
        scheduled
      have behind : planner.instant schedule claim index < result.scheduledForUtc := by
        rw [following]
        exact ordered (Nat.lt_succ_self index)
      have begun : claim.scheduledForUtc ≤ planner.instant schedule claim index :=
        ordered.monotone (Nat.zero_le index)
      rw [← scheduled] at selected
      simp only [coalesce, selected, bind, Except.bind]
      by_cases ahead : claim.claimedAtUtc < result.scheduledForUtc
      · left
        have single : index + 1 = 1 ↔ planner.instant schedule claim index =
            claim.scheduledForUtc := by
          have first : planner.instant schedule claim index = planner.instant schedule claim 0 ↔
            index = 0 :=
            ordered.injective.eq_iff
          exact Nat.add_eq_right.trans first.symm
        have small : index + 1 ≤ maxCoalescedMissedOccurrences := by
          have bounded := planner.bounded
          omega
        have built := missedPlan_valid valid due begun evidence zone behind
          (Nat.le_add_left 1 index) small single
        rw [if_pos ahead, build_ok built]
        rw [following] at ahead
        exact ⟨index, _, rfl, by omega, passed, ahead, built, rfl, following, rfl, rfl, rfl⟩
      · rw [if_neg ahead]
        by_cases full : index + 1 = planner.maxCoalescedOccurrences
        · right
          rw [if_pos full, ← full]
          rw [← following]
          exact ⟨Nat.le_of_not_lt ahead, rfl⟩
        · rw [if_neg full]
          have passedNext : planner.instant schedule claim (index + 1) ≤ claim.claimedAtUtc := by
            rw [← following]
            exact Nat.le_of_not_lt ahead
          have found : ∀ next ∈ (if recordResolution then some result else none),
            next.validate zones = .ok () ∧
              (∀ resolution ∈ next.resolution, resolution.timezone = schedule.timezone) ∧
              next.scheduledForUtc = result.scheduledForUtc := by
            intro next chosen
            split at chosen
            · cases chosen
              exact ⟨checked, zone, rfl⟩
            · cases chosen
          have extended := evidence.extend begun behind found
          rw [following] at extended ⊢
          exact ih (index + 1) _ (by omega) passedNext extended

theorem resolve_onTime (recordResolution : Bool)
    (advances : planner.recurrence.Advances zones schedule.cron schedule.timezone)
    (valid : schedule.validate zones = .ok ())
    (claimed : validateClaimSnapshot schedule claim = .ok ())
    (punctual : claim.claimedAtUtc - claim.scheduledForUtc ≤ seconds schedule.misfireGraceSeconds) :
    ∃ plan, planner.resolve zones schedule claim recordResolution = .ok plan ∧
    plan.validate zones = .ok () ∧
      plan.disposition = .onTime ∧ plan.nextRunAtUtc = planner.instant schedule claim 1 := by
  have due := due_of_claimed claimed
  obtain ⟨result, selected, checked, zone, scheduled⟩ :=
    nextSelection_ok recordResolution advances claim.scheduledForUtc 0
  have behind : claim.scheduledForUtc < result.scheduledForUtc := by
    rw [scheduled]
    exact advances.strictMono (Nat.lt_succ_self 0)
  have built := onTimePlan_valid valid due (started recordResolution valid due) zone behind
  rw [← scheduled] at selected
  refine ⟨_, ?_, built, rfl, scheduled⟩
  simp only [resolve, claimed, bind, Except.bind]
  rw [if_pos punctual]
  rw [RecurrenceCalculator.occurrence] at selected
  simp only [selected]
  exact build_ok built

theorem resolve_missed (recordResolution : Bool)
    (advances : planner.recurrence.Advances zones schedule.cron schedule.timezone)
    (valid : schedule.validate zones = .ok ())
    (claimed : validateClaimSnapshot schedule claim = .ok ())
    (late : seconds schedule.misfireGraceSeconds < claim.claimedAtUtc - claim.scheduledForUtc) :
    ∃ last, planner.instant schedule claim last ≤ claim.claimedAtUtc ∧
      claim.claimedAtUtc < planner.instant schedule claim (last + 1) ∧
      ((∃ plan, planner.resolve zones schedule claim recordResolution = .ok plan ∧
          planner.Coalesced zones schedule claim plan last) ∨
        planner.maxCoalescedOccurrences ≤ last ∧
          planner.resolve zones schedule claim recordResolution =
            .error misfireRangeExhausted) := by
  have due := due_of_claimed claimed
  have ordered : StrictMono (planner.instant schedule claim) := advances.strictMono
  have begun : claim.scheduledForUtc ≤ claim.claimedAtUtc := by
    have waited : 0 < claim.claimedAtUtc - claim.scheduledForUtc := Nat.zero_lt_of_lt late
    exact Nat.le_of_lt (Nat.lt_of_sub_pos waited)
  have resolved : planner.resolve zones schedule claim recordResolution =
      planner.coalesce zones schedule claim recordResolution planner.maxCoalescedOccurrences
        (planner.instant schedule claim 0) (0 + 1)
        ((scheduledRecurrence schedule recordResolution).bind (·.resolution)).toList := by
    simp only [resolve, claimed, bind, Except.bind]
    rw [if_neg (Nat.not_le.mpr late)]
    rfl
  rw [resolved]
  have cases := coalesce_cases advances valid due planner.maxCoalescedOccurrences 0 _
    (Nat.zero_add _) begun (started recordResolution valid due)
  rcases cases with ⟨last, plan, coalesced, reached⟩ | ⟨early, exhausted⟩
  · exact ⟨last, reached.passed, reached.ahead, .inl ⟨plan, coalesced, reached⟩⟩
  · obtain ⟨last, passed, ahead⟩ := advances.enclosing begun
    have crowded : planner.maxCoalescedOccurrences < last + 1 :=
      ordered.lt_iff_lt.mp (Nat.lt_of_le_of_lt early ahead)
    exact ⟨last, passed, ahead, .inr ⟨Nat.le_of_lt_succ crowded, exhausted⟩⟩

end ScheduleMisfirePlanner

/-- A claim on time runs, a late one answers for every occurrence up to it, and only a range that is
longer than the limit fails. Every plan passes its own validation. -/
theorem misfire_resolution (planner : ScheduleMisfirePlanner) (zones : ZoneSupport)
    (schedule : Schedule) (claim : ScheduleClaim) (recordResolution : Bool)
    (advances : planner.recurrence.Advances zones schedule.cron schedule.timezone)
    (valid : schedule.validate zones = .ok ())
    (claimed : validateClaimSnapshot schedule claim = .ok ()) :
    let due := claim.scheduledForUtc
    let instants := planner.recurrence.occurrences schedule.cron schedule.timezone due
    let missed := {instant ∈ instants | due ≤ instant ∧ instant ≤ claim.claimedAtUtc}
    let withinGrace := claim.claimedAtUtc - due ≤ seconds schedule.misfireGraceSeconds
    (∀ plan, planner.resolve zones schedule claim recordResolution = .ok plan →
      plan.validate zones = .ok () ∧ (plan.disposition = .onTime ↔ withinGrace) ∧
        (withinGrace → IsLeast {instant ∈ instants | due < instant} plan.nextRunAtUtc) ∧
        (¬withinGrace → plan.disposition = schedule.misfirePolicy.disposition ∧
          plan.firstMissedAtUtc = some due ∧ plan.missedCount = some missed.ncard ∧
          (∃ last, plan.lastMissedAtUtc = some last ∧
            IsGreatest {instant ∈ instants | instant ≤ claim.claimedAtUtc} last) ∧
          IsLeast {instant ∈ instants | claim.claimedAtUtc < instant} plan.nextRunAtUtc)) ∧
      ∀ reason, planner.resolve zones schedule claim recordResolution = .error reason ↔
        reason = misfireRangeExhausted ∧ ¬withinGrace ∧
            planner.maxCoalescedOccurrences < missed.ncard := by
  intro due instants missed withinGrace
  by_cases punctual : withinGrace
  · obtain ⟨chosen, resolved, built, onTime, next⟩ :=
      ScheduleMisfirePlanner.resolve_onTime recordResolution advances valid claimed punctual
    have ordered : StrictMono (planner.instant schedule claim) := advances.strictMono
    have behind := ordered (Nat.lt_succ_self 0)
    obtain ⟨_, _, least⟩ := advances.enclosed (Nat.le_refl due) behind
    rw [resolved]
    constructor
    · intro plan same
      obtain rfl := Except.ok.inj same
      rw [next]
      exact ⟨built, iff_of_true onTime punctual, fun _ => least, fun late => absurd punctual late⟩
    · intro reason
      constructor
      · intro failed
        cases failed
      · intro exhausted
        exact absurd punctual exhausted.2.1
  · obtain ⟨last, passed, ahead, outcome⟩ :=
      ScheduleMisfirePlanner.resolve_missed recordResolution advances valid claimed
        (Nat.lt_of_not_le punctual)
    obtain ⟨count, greatest, least⟩ := advances.enclosed passed ahead
    have counted : missed.ncard = last + 1 := count
    rcases outcome with ⟨chosen, resolved, reached⟩ | ⟨crowded, exhausted⟩
    · rw [resolved, counted]
      constructor
      · intro plan same
        obtain rfl := Except.ok.inj same
        rw [reached.next, reached.disposition]
        refine ⟨reached.valid,
          iff_of_false (ScheduleMisfirePlanner.disposition_ne_onTime _) punctual,
          fun onTime => absurd onTime punctual, fun _ => ?_⟩
        exact ⟨rfl, reached.firstMissed, reached.missedCount,
          ⟨_, reached.lastMissed, greatest⟩, least⟩
      · intro reason
        constructor
        · intro failed
          cases failed
        · intro exceeded
          have within := reached.within
          omega
    · rw [exhausted, counted]
      constructor
      · intro plan same
        cases same
      · intro reason
        rw [Except.error.injEq]
        constructor
        · intro failed
          exact ⟨failed.symm, punctual, Nat.lt_succ_of_le crowded⟩
        · intro exceeded
          exact exceeded.1.symm

namespace MisfireExample

def zones : ZoneSupport where
  strip value := value
  words _ := 5
  knownTimezone timezone := timezone = "UTC"
  minuteAligned _ := true
  localSnapshot _ _ := ("1970-01-01T00:00:00.000000", 0)

/-- Every minute. -/
def planner : ScheduleMisfirePlanner where
  recurrence := ⟨fun _ _ afterUtc => .ok ⟨afterUtc + 60, none⟩⟩
  maxCoalescedOccurrences := 3
  positive := by decide
  bounded := by decide

def schedule : Schedule where
  id := "schedule.digest"
  triggerId := "trigger.digest"
  instanceId := "instance.writer"
  workflowId := "workflow.digest"
  cron := "* * * * *"
  timezone := "UTC"
  nextRunAtUtc := 10
  misfirePolicy := .runOnce
  misfireGraceSeconds := 0
  enabled := true
  recurrenceVersion := scheduleRecurrenceVersion

/-- A claim that missed three occurrences. -/
def claim : ScheduleClaim :=
  ⟨"schedule.digest", 10, "scheduler.first", 140, 200, scheduleRecurrenceVersion, 1⟩

theorem advances : planner.recurrence.Advances zones schedule.cron schedule.timezone := by
  intro afterUtc
  refine ⟨⟨afterUtc + 60, none⟩, rfl, rfl, ?_, ?_⟩
  · intro resolution absent
    cases absent
  · exact Nat.lt_add_of_pos_right (by decide)

end MisfireExample

theorem misfire_resolution_threeMissed :
    ∃ plan, MisfireExample.planner.resolve MisfireExample.zones MisfireExample.schedule
      MisfireExample.claim true =
        .ok plan ∧ plan.disposition = .runOnce ∧
      plan.missedCount = some
        {instant ∈ MisfireExample.planner.recurrence.occurrences "* * * * *" "UTC" 10 |
        10 ≤ instant ∧ instant ≤ 140}.ncard := by
  obtain ⟨planned, _⟩ := misfire_resolution MisfireExample.planner MisfireExample.zones
    MisfireExample.schedule MisfireExample.claim true MisfireExample.advances (by rfl) (by rfl)
  have late : ¬(140 - 10 ≤ seconds 0) := by decide
  obtain ⟨_, _, _, missed⟩ := planned _ rfl
  obtain ⟨disposition, _, counted, _⟩ := missed late
  exact ⟨_, rfl, disposition, counted⟩

end MarketingAgents
