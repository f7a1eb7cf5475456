import Mathlib
import MarketingAgents.Domain.DependencyGraph
import MarketingAgents.Domain.RecurrenceSnapshots
import MarketingAgents.Library.ZoneClock
import MarketingAgents.Services.ScheduleMisfire

namespace MarketingAgents

open Library

/-! # Cron recurrence

The wall times of an expression one after the other, each resolved to the
instant at which the clocks of the zone show it first.  A wall time that the
clocks leave out is resolved like the next minute that they show.
-/

/-- What the calculator uses of the cron library. -/
structure CronSupport where
  isValid : String → Bool
  getNext : String → Time → Option Time

def maxWallCandidates : Nat := 512

def maxNonexistentAdvanceMinutes : Nat := 2880

@[irreducible] def minute : Nat := seconds 60

def cronField (field : List Char) : Bool :=
  field ≠ [] && field.all fun character => character.isDigit || character ∈ ['*', '/', ',', '-']

/-- An instant or a wall time of the calendar. -/
def inCalendar (value : Int) : Except Rejection Time :=
  if 0 ≤ value ∧ value < endOfTime then .ok value.toNat
    else reject "OverflowError" "date value out of range"

/-- A search that fails for any reason is exhausted. -/
def orExhausted {α : Type} (searched : Except Rejection α) : Except Rejection α :=
  match searched with
  | .ok value => .ok value
  | .error _ => reject "recurrence_exhausted" "schedule has no bounded future occurrence"

section

variable (zone : Zone)

/-- One reading of a wall time, if the clocks show it so. -/
def foldCandidate (wall : Time) (fold : Bool) : Except Rejection (Option Time) := do
  let utcValue ← inCalendar (zone.toUniversal fold wall)
  let roundTrip ← inCalendar (zone.localTime utcValue)
  return if roundTrip = wall ∧ zone.repeated utcValue = fold then some utcValue else none

def resolveWallTime (wall : Time) : Except Rejection (Option Time) := do
  let first ← foldCandidate zone wall false
  let second ← foldCandidate zone wall true
  return (first.toList ++ second.toList).min?

/-- Advance minute by minute to a wall time that exists. -/
def advanceNonexistent : Nat → Time → Except Rejection (Option Time)
  | 0, _ => .ok none
  | minutes + 1, wall => do
      let next ← inCalendar (wall + minute)
      let resolved ← resolveWallTime zone next
      resolved.elim (advanceNonexistent minutes next) fun instant => .ok (some instant)

def resolveOrAdvanceNonexistent (wall : Time) : Except Rejection (Option Time) := do
  let resolved ← resolveWallTime zone wall
  resolved.elim (advanceNonexistent zone maxNonexistentAdvanceMinutes wall) fun instant =>
    .ok (some instant)

end

structure CroniterRecurrenceCalculator where
  zones : ZoneSupport
  zoneInfo : String → Zone
  croniter : CronSupport

namespace CroniterRecurrenceCalculator

variable (calculator : CroniterRecurrenceCalculator) (cron timezone : String) (afterUtc : Time)

def validateCron : Except Rejection Unit := do
  recoded "invalid_cron" (requireText calculator.zones.strip cron "schedule cron" 100)
  let fields := cron.toList.splitOn ' '
  require (fields.length = 5 ∧ ∀ field ∈ fields, cronField field = true)
    "invalid_cron" "schedule cron must contain exactly five fields"
  require (calculator.croniter.isValid cron) "invalid_cron" "schedule cron is invalid"

def wallText (wall : Time) : String := ZonedDatetime.isoformat ⟨.ofInstant wall, none⟩

/-- A selection with the reason why it is no ordinary one. -/
def selection (wall instant : Time) : Except Rejection RecurrenceResult := do
  let shown ← resolveWallTime (calculator.zoneInfo timezone) wall
  let result : RecurrenceResult := {
    scheduledForUtc := instant
    resolution := if shown = none then
        some { nominalLocal := wallText wall, timezone, resolvedAtUtc := instant }
      else none }
  result.validate (calendarZones calculator.zones)
  return result

/-- What a wall time gives behind the boundary. -/
def candidate (wall : Time) : Except Rejection (Option RecurrenceResult) := do
  let resolved ← resolveOrAdvanceNonexistent (calculator.zoneInfo timezone) wall
  (resolved.filter (afterUtc < ·)).elim (.ok none) fun instant =>
    some <$> calculator.selection timezone wall instant

/-- The wall times behind a position, at most as many as told. -/
def search : Nat → Time → Except Rejection RecurrenceResult
  | 0, _ => reject "recurrence_exhausted" "schedule has no bounded future occurrence"
  | candidates + 1, position => do
      let wall ← requireSome (calculator.croniter.getNext cron position) "CroniterBadDateError"
        "failed to find next date"
      let found ← calculator.candidate timezone afterUtc wall
      found.elim (search candidates wall) .ok

def nextOccurrenceAfter : Except Rejection RecurrenceResult := do
  calculator.validateCron cron
  recoded "invalid_timezone" (requireIanaTimezone calculator.zones timezone "schedule timezone")
  let localBoundary ← inCalendar ((calculator.zoneInfo timezone).localTime afterUtc)
  orExhausted (calculator.search cron timezone afterUtc maxWallCandidates localBoundary)

/-- The calculator as the services use it. -/
def recurrence : RecurrenceCalculator where
  nextOccurrenceAfter := calculator.nextOccurrenceAfter

end CroniterRecurrenceCalculator

/-- The instant that a wall time of whole minutes stands for. -/
def WallResolves (zone : Zone) (wall instant : Time) : Prop :=
  zone.Resolves minute maxNonexistentAdvanceMinutes wall instant

section

variable {zone : Zone} {wall instant : Time} {fold : Bool}

theorem inCalendar_ok {value : Int} {result : Time} :
    inCalendar value = .ok result ↔ (result : Int) = value ∧ result < endOfTime := by
  unfold inCalendar
  split
  · rename_i inside
    obtain ⟨positive, bounded⟩ := inside
    obtain ⟨natural, rfl⟩ := Int.eq_ofNat_of_zero_le positive
    rw [Int.toNat_natCast, Except.ok.injEq, Nat.cast_inj, eq_comm]
    exact ⟨fun same => ⟨same, same ▸ by exact_mod_cast bounded⟩, And.left⟩
  · rename_i outside
    rw [reject_ok, false_iff]
    rintro ⟨rfl, bounded⟩
    exact outside ⟨Int.natCast_nonneg _, by exact_mod_cast bounded⟩

theorem foldCandidate_ok : foldCandidate zone wall fold = .ok result → ∃ utcValue : Time,
    (utcValue : Int) = zone.toUniversal fold wall ∧
      ((zone.localTime utcValue = wall ∧ zone.repeated utcValue = fold) ∧ result = some utcValue ∨
        ¬(zone.localTime utcValue = wall ∧ zone.repeated utcValue = fold) ∧ result = none) := by
  intro done
  simp only [foldCandidate, bind_ok, pure_ok, inCalendar_ok] at done
  obtain ⟨utcValue, ⟨read, _⟩, roundTrip, ⟨shown, _⟩, rfl⟩ := done
  refine ⟨utcValue, read, ?_⟩
  rw [← shown, Nat.cast_inj]
  by_cases same : roundTrip = wall ∧ zone.repeated utcValue = fold
  · exact .inl ⟨same, if_pos same⟩
  · exact .inr ⟨same, if_neg same⟩

theorem resolveWallTime_ok (done : resolveWallTime zone wall = .ok resolved) :
    (∃ instant, resolved = some instant ∧
      IsLeast {reading : Int | wall ≤ zone.localTime reading} instant ∧
      zone.localTime instant = wall) ∨ resolved = none ∧ ¬zone.Shows wall := by
  simp only [resolveWallTime, bind_ok, pure_ok] at done
  obtain ⟨first, firstDone, second, secondDone, rfl⟩ := done
  obtain ⟨early, earlyRead, firstCases⟩ := foldCandidate_ok firstDone
  obtain ⟨late, _, secondCases⟩ := foldCandidate_ok secondDone
  by_cases shows : zone.Shows wall
  · left
    have least := Zone.earliest shows
    have single := Zone.earliest_single shows
    have shown := Zone.shows_iff.mp shows
    rw [← earlyRead] at least single shown
    have found : first = some early := by
      rcases firstCases with ⟨_, found⟩ | ⟨missing, _⟩
      · exact found
      · exact absurd ⟨shown, single⟩ missing
    refine ⟨early, ?_, least, shown⟩
    rcases secondCases with ⟨⟨again, _⟩, rfl⟩ | ⟨_, rfl⟩
    · have order : early ≤ late := by
        have bound := least.2 (show (wall : Int) ≤ zone.localTime late from again.symm.le)
        exact_mod_cast bound
      simp [found, List.min?_cons, Nat.min_eq_left order]
    · simp [found]
  · right
    rcases firstCases with ⟨⟨shown, _⟩, _⟩ | ⟨_, rfl⟩
    · exact absurd ⟨_, shown⟩ shows
    · rcases secondCases with ⟨⟨shown, _⟩, _⟩ | ⟨_, rfl⟩
      · exact absurd ⟨_, shown⟩ shows
      · exact ⟨rfl, shows⟩

/-- What a search over the next minutes found. -/
theorem advanceNonexistent_ok {minutes : Nat}
    (done : advanceNonexistent zone minutes wall = .ok resolved) :
      (∃ instant delay, resolved = some instant ∧ 1 ≤ delay ∧ delay ≤ minutes ∧
        IsLeast {reading : Int | (wall : Int) + (delay : Nat) * minute ≤
          zone.localTime reading} instant ∧
        zone.localTime instant = wall + delay * minute ∧
        ∀ earlier, 1 ≤ earlier → earlier < delay → ¬zone.Shows (wall + (earlier : Nat) * minute)) ∨
      resolved = none ∧ ∀ delay : Nat, 1 ≤ delay → delay ≤ minutes →
        ¬zone.Shows (wall + delay * minute) := by
  induction minutes generalizing wall with
  | zero =>
      cases done
      exact .inr ⟨rfl, fun delay some none => absurd some (by omega)⟩
  | succ minutes ih =>
      simp only [advanceNonexistent, bind_ok, inCalendar_ok] at done
      obtain ⟨next, ⟨following, _⟩, found, resolves, done⟩ := done
      have step : ∀ delay : Nat, (next : Int) + delay * minute =
          wall + (delay + 1 : Nat) * minute := by
        intro delay
        rw [following]
        push_cast
        ring
      have first : (next : Int) = wall + (1 : Nat) * minute := by
        rw [following]
        push_cast
        ring
      rcases resolveWallTime_ok resolves with ⟨instant, rfl, least, shown⟩ | ⟨rfl, hidden⟩
      · cases done
        rw [first] at least shown
        exact .inl ⟨instant, 1, rfl, Nat.le_refl 1, by omega, least, shown,
          fun earlier some none => absurd some (by omega)⟩
      · rw [first] at hidden
        have split : ∀ delay : Nat, 1 ≤ delay → delay = 1 ∨ ∃ less, 1 ≤ less ∧
            delay = less + 1 := by
          intro delay positive
          rcases Nat.eq_or_lt_of_le positive with one | more
          · exact .inl one.symm
          · exact .inr ⟨delay - 1, by omega, by omega⟩
        rcases ih done with ⟨instant, delay, rfl, positive, within, least, shown, before⟩ |
          ⟨rfl, none⟩
        · rw [step] at least shown
          refine .inl ⟨instant, delay + 1, rfl, by omega, by omega, least, shown,
            fun earlier some less => ?_⟩
          rcases split earlier some with rfl | ⟨previous, one, rfl⟩
          · exact hidden
          · rw [← step]
            exact before previous one (by omega)
        · refine .inr ⟨rfl, fun delay some within => ?_⟩
          rcases split delay some with rfl | ⟨previous, one, rfl⟩
          · exact hidden
          · rw [← step]
            exact none previous one (by omega)

theorem resolveOrAdvance_ok (done : resolveOrAdvanceNonexistent zone wall = .ok resolved) :
    (∃ instant, resolved = some instant ∧ WallResolves zone wall instant) ∨
      resolved = none ∧ ∀ delay ≤ maxNonexistentAdvanceMinutes,
        ¬zone.Shows (wall + (delay : Nat) * minute) := by
  unfold resolveOrAdvanceNonexistent at done
  unfold WallResolves
  generalize maxNonexistentAdvanceMinutes = limit at done ⊢
  simp only [bind_ok] at done
  obtain ⟨direct, resolves, done⟩ := done
  have zero : (wall : Int) + (0 : Nat) * minute = wall := by simp
  rcases resolveWallTime_ok resolves with ⟨instant, rfl, least, shown⟩ | ⟨rfl, hidden⟩
  · rw [Option.elim_some, Except.ok.injEq] at done
    rw [← zero] at least shown
    exact .inl ⟨instant, done.symm, .of_reached (Nat.zero_le _) least shown fun earlier none =>
      absurd none (by omega)⟩
  · rw [← zero] at hidden
    rw [Option.elim_none] at done
    rcases advanceNonexistent_ok done with ⟨instant, delay, rfl, _, within, least, shown, before⟩ |
      ⟨rfl, none⟩
    · refine .inl ⟨instant, rfl, .of_reached within least shown fun earlier less => ?_⟩
      rcases Nat.eq_zero_or_pos earlier with rfl | positive
      · exact hidden
      · exact before earlier positive less
    · refine .inr ⟨rfl, fun delay within => ?_⟩
      rcases Nat.eq_zero_or_pos delay with rfl | positive
      · exact hidden
      · exact none delay positive within

end

/-- The cron library names the matching minutes behind a position in their order. -/
structure CronSupport.Enumerates (croniter : CronSupport) (cron : String)
    (matching : Set Time) : Prop where
  whole : ∀ wall ∈ matching, minute ∣ wall
  next : ∀ position wall, croniter.getNext cron position = some wall →
    IsLeast {other ∈ matching | position < other} wall

/-- A selection tells the wall time exactly if the clocks leave it out. -/
def Evidence (zone : Zone) (timezone : String) (wall : Time) (result : RecurrenceResult) : Prop :=
  zone.Shows wall ∧ result.resolution = none ∨
    ¬zone.Shows wall ∧ result.resolution = some {
      nominalLocal := CroniterRecurrenceCalculator.wallText wall
      timezone
      resolvedAtUtc := result.scheduledForUtc }

namespace CroniterRecurrenceCalculator

variable {calculator : CroniterRecurrenceCalculator} {cron timezone : String} {matching : Set Time}
  {afterUtc wall : Time}
variable {result : RecurrenceResult}

theorem selection_ok {instant : Time}
    (selected : calculator.selection timezone wall instant = .ok result) :
    result.scheduledForUtc = instant ∧ result.validate (calendarZones calculator.zones) = .ok () ∧
      Evidence (calculator.zoneInfo timezone) timezone wall result := by
  simp only [selection, bind_ok, pure_ok] at selected
  obtain ⟨shown, resolves, done, valid, rfl⟩ := selected
  refine ⟨rfl, valid, ?_⟩
  rcases resolveWallTime_ok resolves with ⟨instant, rfl, _, shown⟩ | ⟨rfl, hidden⟩
  · exact .inl ⟨⟨_, shown⟩, rfl⟩
  · exact .inr ⟨hidden, rfl⟩

theorem candidate_ok (done : calculator.candidate timezone afterUtc wall = .ok found) :
    (∃ result, found = some result ∧
      WallResolves (calculator.zoneInfo timezone) wall result.scheduledForUtc ∧
      afterUtc < result.scheduledForUtc ∧
      result.validate (calendarZones calculator.zones) = .ok () ∧
        Evidence (calculator.zoneInfo timezone) timezone wall result) ∨
      found = none ∧ ∀ instant : Time, WallResolves (calculator.zoneInfo timezone) wall instant →
        instant ≤ afterUtc := by
  simp only [candidate, bind_ok] at done
  obtain ⟨resolved, resolves, done⟩ := done
  rcases resolveOrAdvance_ok resolves with ⟨instant, rfl, stands⟩ | ⟨rfl, none⟩
  · by_cases later : afterUtc < instant
    · rw [Option.filter_some_pos (by simpa using later), Option.elim_some] at done
      cases selected : calculator.selection timezone wall instant with
      | error reason =>
          rw [selected] at done
          cases done
      | ok result =>
          rw [selected] at done
          obtain ⟨same, valid, evidence⟩ := selection_ok selected
          exact .inl ⟨result, (Except.ok.inj done).symm, same ▸ stands, same ▸ later,
            valid, evidence⟩
    · rw [Option.filter_some_neg (by simpa using later), Option.elim_none] at done
      refine .inr ⟨(Except.ok.inj done).symm, fun other resolved => ?_⟩
      obtain rfl : instant = other := by exact_mod_cast stands.unique resolved
      exact Nat.not_lt.mp later
  · rw [Option.filter_none, Option.elim_none] at done
    refine .inr ⟨(Except.ok.inj done).symm, fun other resolved => ?_⟩
    obtain ⟨delay, within, least, _⟩ := resolved
    exact absurd ⟨_, least.1⟩ (none delay within)

theorem minute_pos : (0 : Int) < minute := by
  rw [minute]
  decide

theorem search_ok (enumerates : calculator.croniter.Enumerates cron matching) {candidates : Nat}
    {position : Time}
    (found : calculator.search cron timezone afterUtc candidates position = .ok result) :
    afterUtc < result.scheduledForUtc ∧ result.validate (calendarZones calculator.zones) = .ok () ∧
      (∃ wall ∈ matching, WallResolves (calculator.zoneInfo timezone) wall result.scheduledForUtc ∧
        Evidence (calculator.zoneInfo timezone) timezone wall result) ∧
      ∀ other ∈ matching, position < other → ∀ instant :
        Time, WallResolves (calculator.zoneInfo timezone) other instant →
        afterUtc < instant → result.scheduledForUtc ≤ instant := by
  induction candidates generalizing position with
  | zero => cases found
  | succ candidates ih =>
      simp only [search, bind_ok, requireSome_ok] at found
      obtain ⟨wall, next, tried, attempt, found⟩ := found
      obtain ⟨⟨member, behind⟩, least⟩ := enumerates.next position wall next
      rcases candidate_ok attempt with ⟨selected, rfl, stands, later, valid, evidence⟩ |
        ⟨rfl, passed⟩
      · obtain rfl := Except.ok.inj found
        refine ⟨later, valid, ⟨wall, member, stands, evidence⟩,
          fun other listed beyond instant resolved _ => ?_⟩
        have order : wall ≤ other := least ⟨listed, beyond⟩
        have whole : (minute : Int) ∣ other - wall :=
          Int.dvd_sub (Int.natCast_dvd_natCast.mpr (enumerates.whole other listed))
            (Int.natCast_dvd_natCast.mpr (enumerates.whole wall member))
        exact_mod_cast stands.monotone minute_pos whole (by exact_mod_cast order) resolved
      · obtain ⟨later, valid, some, minimal⟩ := ih found
        refine ⟨later, valid, some, fun other listed beyond instant resolved after => ?_⟩
        have order : wall ≤ other := least ⟨listed, beyond⟩
        rcases Nat.eq_or_lt_of_le order with rfl | further
        · exact absurd after (Nat.not_lt.mpr (passed instant resolved))
        · exact minimal other listed further instant resolved after

theorem nextOccurrenceAfter_ok
    (calculated : calculator.nextOccurrenceAfter cron timezone afterUtc = .ok result) :
    ∃ boundary : Time, (boundary : Int) = (calculator.zoneInfo timezone).localTime afterUtc ∧
      calculator.search cron timezone afterUtc maxWallCandidates boundary = .ok result := by
  unfold nextOccurrenceAfter at calculated
  generalize maxWallCandidates = candidates at calculated ⊢
  simp only [bind_ok, inCalendar_ok] at calculated
  obtain ⟨_, _, _, _, boundary, ⟨read, _⟩, searched⟩ := calculated
  refine ⟨boundary, read, ?_⟩
  cases found : calculator.search cron timezone afterUtc candidates boundary with
  | error reason =>
      rw [found] at searched
      cases searched
  | ok selected =>
      rw [found] at searched
      exact searched

theorem nextOccurrenceAfter_least (enumerates : calculator.croniter.Enumerates cron matching)
    (calculated : calculator.nextOccurrenceAfter cron timezone afterUtc = .ok result) :
    afterUtc < result.scheduledForUtc ∧ result.validate (calendarZones calculator.zones) = .ok () ∧
      (∃ wall ∈ matching, WallResolves (calculator.zoneInfo timezone) wall result.scheduledForUtc ∧
        Evidence (calculator.zoneInfo timezone) timezone wall result) ∧
      ∀ wall ∈ matching, ∀ instant :
        Time, WallResolves (calculator.zoneInfo timezone) wall instant → afterUtc < instant →
        (calculator.zoneInfo timezone).localTime afterUtc < wall ∨
        (calculator.zoneInfo timezone).Shows wall ∨
          (calculator.zoneInfo timezone).Whole minute afterUtc →
        result.scheduledForUtc ≤ instant := by
  obtain ⟨boundary, read, searched⟩ := nextOccurrenceAfter_ok calculated
  obtain ⟨later, valid, some, minimal⟩ := search_ok enumerates searched
  refine ⟨later, valid, some, fun wall member instant resolved after ahead => ?_⟩
  by_cases beyond : boundary < wall
  · exact minimal wall member beyond instant resolved after
  · have passed : (wall : Int) ≤ (calculator.zoneInfo timezone).localTime afterUtc := by
      rw [← read]
      exact_mod_cast Nat.not_lt.mp beyond
    have exact' := ahead.resolve_left (Int.not_lt.mpr passed)
    have early := resolved.passed minute_pos
      (Int.natCast_dvd_natCast.mpr (enumerates.whole wall member)) passed exact'
    exact absurd after (Nat.not_lt.mpr (by exact_mod_cast early))

theorem steps_le {sequence : Nat → Time} :
    ∀ {count index : Nat}, (∀ place < count, sequence place < sequence (place + 1)) →
    index ≤ count → sequence index ≤ sequence count
  | 0, index, _, small => by rw [Nat.le_zero.mp small]
  | count + 1, index, growing, small => by
      rcases Nat.eq_or_lt_of_le small with rfl | before
      · exact Nat.le_refl _
      · exact (steps_le (fun place less => growing place (by omega))
          (Nat.le_of_lt_succ before)).trans (growing count (Nat.lt_succ_self count)).le

/-- The calculated occurrences from a due time on are the instants of the matching wall times, each
of them once and in order. -/
theorem occurrences_exact (enumerates : calculator.croniter.Enumerates cron matching)
    {due : Time} (whole : (calculator.zoneInfo timezone).Whole minute due) (count : Nat)
    (calculated : ∀ index < count, ∃ result,
      calculator.nextOccurrenceAfter cron timezone
        (calculator.recurrence.occurrence cron timezone due index) = .ok result) :
    (∀ index < count, calculator.recurrence.occurrence cron timezone due index <
      calculator.recurrence.occurrence cron timezone due (index + 1)) ∧
    ∀ instant : Time, due < instant → instant ≤
      calculator.recurrence.occurrence cron timezone due count →
      ((∃ wall ∈ matching, WallResolves (calculator.zoneInfo timezone) wall instant) ↔
        ∃ index, 1 ≤ index ∧ index ≤ count ∧
          calculator.recurrence.occurrence cron timezone due index = instant) := by
  induction count with
  | zero =>
      refine ⟨fun index none => absurd none (Nat.not_lt_zero index), fun instant later early => ?_⟩
      exact absurd later (Nat.not_lt.mpr early)
  | succ count ih =>
      obtain ⟨growing, exact⟩ := ih fun index less => calculated index (by omega)
      obtain ⟨result, found⟩ := calculated count (by omega)
      have next : calculator.recurrence.occurrence cron timezone due (count + 1) =
          result.scheduledForUtc := by
        have same : calculator.recurrence.nextAfter cron timezone
          (calculator.recurrence.occurrence cron timezone due count) =
            .ok result.scheduledForUtc := by
          change (calculator.nextOccurrenceAfter cron timezone
            (calculator.recurrence.occurrence cron timezone due count) >>=
            fun result => pure result.scheduledForUtc) = _
          rw [found]
          rfl
        rw [RecurrenceCalculator.occurrence, same]
      obtain ⟨later, _, ⟨wall, member, stands, _⟩, minimal⟩ :=
        nextOccurrenceAfter_least enumerates found
      -- Behind the due time every occurrence is an instant at which the clocks show a whole minute.
      have current : (calculator.zoneInfo timezone).Whole minute
          (calculator.recurrence.occurrence cron timezone due count : Time) := by
        rcases Nat.eq_zero_or_pos count with rfl | positive
        · exact whole
        · have behind := (growing 0 positive).trans_le (steps_le growing positive)
          obtain ⟨wall, member, stands⟩ :=
            (exact _ behind (Nat.le_refl _)).mpr ⟨count, positive, Nat.le_refl _, rfl⟩
          exact stands.whole (Int.natCast_dvd_natCast.mpr (enumerates.whole wall member))
      have steps : ∀ index < count + 1, calculator.recurrence.occurrence cron timezone due index <
          calculator.recurrence.occurrence cron timezone due (index + 1) := by
        intro index less
        rcases Nat.eq_or_lt_of_le (Nat.le_of_lt_succ less) with rfl | before
        · rw [next]
          exact later
        · exact growing index before
      refine ⟨steps, fun instant after within => ?_⟩
      by_cases earlier : instant ≤ calculator.recurrence.occurrence cron timezone due count
      · rw [exact instant after earlier]
        constructor
        · rintro ⟨index, positive, small, same⟩
          exact ⟨index, positive, by omega, same⟩
        · rintro ⟨index, positive, small, rfl⟩
          rcases Nat.eq_or_lt_of_le small with rfl | before
          · rw [next] at earlier
            exact absurd later (Nat.not_lt.mpr earlier)
          · exact ⟨index, positive, by omega, rfl⟩
      · constructor
        · rintro ⟨other, listed, resolves⟩
          have bound := minimal other listed instant resolves (Nat.not_le.mp earlier)
            (.inr (.inr current))
          exact ⟨count + 1, by omega, Nat.le_refl _, Nat.le_antisymm (next ▸ bound) within⟩
        · rintro ⟨index, _, small, rfl⟩
          rcases Nat.eq_or_lt_of_le small with rfl | before
          · rw [next]
            exact ⟨wall, member, stands⟩
          · -- The occurrences before were at most the last one.
            have order := steps_le growing (Nat.le_of_lt_succ before)
            exact absurd order earlier

end CroniterRecurrenceCalculator

end MarketingAgents
