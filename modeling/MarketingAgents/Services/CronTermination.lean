import Mathlib
import MarketingAgents.Services.CronRecurrence

namespace MarketingAgents

open Library

/-! # The search for the next occurrence ends

In a zone of whole minutes that never puts its clocks back by more minutes than
the search looks at wall times, or forward by more than a nonexistent time is
advanced, every search finds an occurrence unless the calendar ends.
-/

/-- The microseconds of a day. -/
@[irreducible] def civilDay : Nat := 1440 * minute

structure CivilZone (zone : Zone) : Prop where
  grid : OnGrid minute zone.first zone.transitions
  back : PutBack ((maxWallCandidates - 1 : Nat) * minute) zone.first zone.transitions
  forward : PutForward (maxNonexistentAdvanceMinutes * minute) zone.first zone.transitions
  offsets : OffsetsWithin civilDay zone.first zone.transitions

/-- The wall time that so many steps of the cron library lead to. -/
def CronSupport.walk (croniter : CronSupport) (cron : String) : Nat → Time → Option Time
  | 0, position => some position
  | steps + 1, position => (croniter.getNext cron position).bind (croniter.walk cron steps)

section

variable {zone : Zone} {wall instant : Time}

theorem inCalendar_inside {value : Int} (positive : 0 ≤ value) (bounded : value < endOfTime) :
    ∃ result : Time, inCalendar value = .ok result ∧ (result : Int) = value :=
  ⟨value.toNat, if_pos ⟨positive, bounded⟩, Int.toNat_of_nonneg positive⟩

theorem foldCandidate_returns (civil : CivilZone zone) (fold : Bool)
    (early : 2 * (civilDay : Int) ≤ wall) (late : (wall : Int) + 2 * civilDay < endOfTime) :
      ∃ found, foldCandidate zone wall fold = .ok found := by
  have offset : -(civilDay : Int) ≤ wallOffset fold zone.first zone.transitions wall ∧ _ :=
    civil.offsets.wallOffset
  obtain ⟨utcValue, read, same⟩ : ∃ result, inCalendar (zone.toUniversal fold wall) =
    .ok result ∧ _ :=
    inCalendar_inside (by rw [Zone.toUniversal]; omega) (by rw [Zone.toUniversal]; omega)
  have ahead : -(civilDay : Int) ≤ offsetAt zone.first zone.transitions utcValue ∧ _ :=
    civil.offsets.offsetAt
  have place : (utcValue : Int) = wall - wallOffset fold zone.first zone.transitions wall := same
  obtain ⟨roundTrip, shown, _⟩ : ∃ result, inCalendar (zone.localTime utcValue) = .ok result ∧ _ :=
    inCalendar_inside (by rw [Zone.localTime]; omega) (by rw [Zone.localTime]; omega)
  rw [foldCandidate, read]
  change ∃ found, (inCalendar (zone.localTime utcValue) >>= _) = .ok found
  rw [shown]
  exact ⟨_, rfl⟩

theorem resolveWallTime_returns (civil : CivilZone zone) (early : 2 * (civilDay : Int) ≤ wall)
    (late : (wall : Int) + 2 * civilDay < endOfTime) :
      ∃ resolved, resolveWallTime zone wall = .ok resolved := by
  obtain ⟨first, one⟩ := foldCandidate_returns civil false early late
  obtain ⟨second, two⟩ := foldCandidate_returns civil true early late
  rw [resolveWallTime, one]
  change ∃ resolved, (foldCandidate zone wall true >>= _) = .ok resolved
  rw [two]
  exact ⟨_, rfl⟩

theorem advanceNonexistent_returns (civil : CivilZone zone) (minutes : Nat)
    (early : 2 * (civilDay : Int) ≤ wall)
    (late : (wall : Int) + minutes * minute + 2 * civilDay < endOfTime) :
    ∃ resolved, advanceNonexistent zone minutes wall = .ok resolved := by
  induction minutes generalizing wall with
  | zero => exact ⟨_, rfl⟩
  | succ minutes ih =>
      have whole : ((minutes + 1 : Nat) : Int) * minute = minutes * minute + minute := by
        push_cast
        ring
      have positive : (0 : Int) ≤ (minutes : Int) * minute := by positivity
      have step := CroniterRecurrenceCalculator.minute_pos
      rw [whole] at late
      obtain ⟨next, read, same⟩ : ∃ next, inCalendar ((wall : Int) + minute) = .ok next ∧ _ :=
        inCalendar_inside (by omega) (by omega)
      obtain ⟨resolved, resolves⟩ : ∃ resolved, resolveWallTime zone next = .ok resolved :=
        resolveWallTime_returns civil (by omega) (by omega)
      obtain ⟨later, advanced⟩ := ih (show 2 * (civilDay : Int) ≤ next by omega) (by omega)
      simp only [advanceNonexistent, bind_ok]
      cases resolved with
      | none => exact ⟨later, next, read, none, resolves, advanced⟩
      | some instant => exact ⟨some instant, next, read, some instant, resolves, rfl⟩

theorem elim_returns (direct : Option Time) {next : Except Rejection (Option Time)}
    (advances : ∃ later, next = .ok later) :
    ∃ resolved, direct.elim next (fun instant => .ok (some instant)) = .ok resolved := by
  obtain ⟨later, advanced⟩ := advances
  cases direct with
  | none => exact ⟨later, advanced⟩
  | some instant => exact ⟨some instant, rfl⟩

/-- Every whole minute resolves. -/
theorem resolveOrAdvance_returns (civil : CivilZone zone) (whole : minute ∣ wall)
    (early : 2 * (civilDay : Int) ≤ wall) (late : (wall : Int) + 4 * civilDay < endOfTime) :
    ∃ instant, resolveOrAdvanceNonexistent zone wall = .ok (some instant) := by
  have days : (maxNonexistentAdvanceMinutes : Int) * minute = 2 * civilDay := by
    rw [maxNonexistentAdvanceMinutes, civilDay]
    push_cast
    ring
  obtain ⟨direct, resolves⟩ := resolveWallTime_returns civil early (by omega)
  have returns : ∃ resolved, resolveOrAdvanceNonexistent zone wall = .ok resolved := by
    have advances := advanceNonexistent_returns civil maxNonexistentAdvanceMinutes early (by omega)
    rw [resolveOrAdvanceNonexistent, resolves]
    exact elim_returns direct advances
  obtain ⟨resolved, done⟩ := returns
  rcases resolveOrAdvance_ok done with ⟨instant, rfl, _⟩ | ⟨rfl, hidden⟩
  · exact ⟨instant, done⟩
  · exfalso
    obtain ⟨reading, onGrid, reached, soon⟩ :=
      localAt_bridge (by positivity) (Int.natCast_dvd_natCast.mpr whole) zone.ordered
        civil.forward civil.grid
    obtain ⟨count, same⟩ := Int.dvd_sub onGrid (Int.natCast_dvd_natCast.mpr whole)
    have positive := CroniterRecurrenceCalculator.minute_pos
    have shown : zone.localTime reading = wall + count * minute := by
      change localAt zone.first zone.transitions reading = _
      linarith
    have nonnegative : 0 ≤ count := by
      by_contra negative
      have product := Int.mul_neg_of_pos_of_neg positive (Int.not_le.mp negative)
      omega
    obtain ⟨delay, rfl⟩ := Int.eq_ofNat_of_zero_le nonnegative
    have within : delay ≤ maxNonexistentAdvanceMinutes := by
      by_contra beyond
      have product := Int.mul_lt_mul_of_pos_left
        (show (maxNonexistentAdvanceMinutes : Int) < delay by omega) positive
      linarith
    exact hidden delay within ⟨reading, shown⟩

theorem wallText_nominal (whole : minute ∣ wall) (inside : wall < endOfTime) :
    nominalLocal (CroniterRecurrenceCalculator.wallText wall) = true := by
  obtain ⟨valid, _⟩ := Datetime.ofInstant_valid inside
  have read : ZonedDatetime.fromIsoformat (CroniterRecurrenceCalculator.wallText wall) =
    some ⟨.ofInstant wall, none⟩ :=
    ZonedDatetime.fromIsoformat_isoformat valid (by simp)
  obtain ⟨count, rfl⟩ := whole
  have clock : (Datetime.ofInstant (minute * count)).second = 0 ∧
      (Datetime.ofInstant (minute * count)).microsecond = 0 := by
    have split : minute * count = count * 60 * 1000000 := by
      rw [minute, seconds]
      ring
    simp only [Datetime.ofInstant, split]
    constructor
    · rw [Nat.mul_div_cancel _ (by decide)]
      exact Nat.mul_mod_left count 60
    · exact Nat.mul_mod_left (count * 60) 1000000
  rw [nominalLocal, read]
  simp [clock.1, clock.2, CroniterRecurrenceCalculator.wallText]

end

namespace CroniterRecurrenceCalculator

variable {calculator : CroniterRecurrenceCalculator} {cron timezone : String} {matching : Set Time}
  {afterUtc wall : Time}

theorem resolution_validates {zones : ZoneSupport} {instant : Time}
    (nominal : nominalLocal text = true)
    (known : requireIanaTimezone zones timezone "schedule timezone" = .ok ()) :
    RecurrenceResolution.validate (calendarZones zones)
      { nominalLocal := text, timezone, resolvedAtUtc := instant } = .ok () := by
  simp only [requireIanaTimezone, requireText, bind_ok, require_ok] at known
  obtain ⟨_, named, listed⟩ := known
  simp only [RecurrenceResolution.validate, requireIanaTimezone, requireText, bind_ok, require_ok]
  exact ⟨(), nominal, (), named, listed⟩

theorem selection_returns (civil : CivilZone (calculator.zoneInfo timezone))
    (known : requireIanaTimezone calculator.zones timezone "schedule timezone" = .ok ())
    (whole : minute ∣ wall)
    (early : 2 * (civilDay : Int) ≤ wall) (late : (wall : Int) + 2 * civilDay < endOfTime)
    (instant : Time) :
    ∃ result, calculator.selection timezone wall instant = .ok result := by
  obtain ⟨shown, resolves⟩ := resolveWallTime_returns civil early late
  have inside : wall < endOfTime := by
    have calendar : (wall : Int) < endOfTime := by omega
    exact_mod_cast calendar
  have valid (text : String) (nominal : nominalLocal text = true) :
    RecurrenceResult.validate (calendarZones calculator.zones) {
      scheduledForUtc := instant
      resolution := if shown = none then some
          { nominalLocal := text, timezone, resolvedAtUtc := instant } else none } = .ok () := by
    rw [RecurrenceResult.validate, requireOptional_ok]
    intro resolution selected
    split at selected
    · obtain rfl := Option.some.inj selected
      simp only [bind_ok, require_ok]
      exact ⟨(), resolution_validates nominal known, trivial⟩
    · cases selected
  simp only [selection, bind_ok, pure_ok, resolves, Except.ok.injEq]
  exact ⟨_, shown, rfl, (), valid _ (wallText_nominal whole inside), rfl⟩

theorem candidate_returns (civil : CivilZone (calculator.zoneInfo timezone))
    (known : requireIanaTimezone calculator.zones timezone "schedule timezone" = .ok ())
    (whole : minute ∣ wall)
    (early : 2 * (civilDay : Int) ≤ wall) (late : (wall : Int) + 4 * civilDay < endOfTime) :
    ∃ found, calculator.candidate timezone afterUtc wall = .ok found := by
  obtain ⟨instant, resolves⟩ := resolveOrAdvance_returns civil whole early late
  obtain ⟨result, selected⟩ := selection_returns civil known whole early (by omega) instant
  rw [candidate, resolves]
  change ∃ found, ((some instant).filter (afterUtc < ·)).elim (Except.ok none) _ = Except.ok found
  by_cases later : afterUtc < instant
  · rw [Option.filter_some_pos (by simpa using later), Option.elim_some, selected]
    exact ⟨_, rfl⟩
  · rw [Option.filter_some_neg (by simpa using later)]
    exact ⟨_, rfl⟩

theorem walk_ahead (enumerates : calculator.croniter.Enumerates cron matching) {steps : Nat}
    {position last : Time}
    (walked : calculator.croniter.walk cron (steps + 1) position = some last) :
    last ∈ matching ∧ position + steps * minute < last := by
  induction steps generalizing position with
  | zero =>
      rw [CronSupport.walk, Option.bind_eq_some_iff] at walked
      obtain ⟨wall, next, stop⟩ := walked
      obtain rfl : wall = last := Option.some.inj stop
      obtain ⟨⟨member, behind⟩, _⟩ := enumerates.next position wall next
      exact ⟨member, by simpa using behind⟩
  | succ steps ih =>
      rw [CronSupport.walk, Option.bind_eq_some_iff] at walked
      obtain ⟨wall, next, onward⟩ := walked
      obtain ⟨⟨member, behind⟩, _⟩ := enumerates.next position wall next
      obtain ⟨listed, ahead⟩ := ih onward
      refine ⟨listed, ?_⟩
      obtain ⟨start, rfl⟩ := enumerates.whole wall member
      obtain ⟨finish, rfl⟩ := enumerates.whole last listed
      have further : start + steps < finish := by
        have scaled : minute * (start + steps) < minute * finish := by
          rw [Nat.mul_add, Nat.mul_comm minute steps]
          exact ahead
        exact Nat.lt_of_mul_lt_mul_left scaled
      have reach : minute * (start + steps + 1) ≤ minute * finish :=
        Nat.mul_le_mul_left minute further
      have split : minute * (start + steps + 1) = minute * start + (steps + 1) * minute := by ring
      rw [split] at reach
      exact Nat.lt_of_lt_of_le (Nat.add_lt_add_right behind _) reach

/-- A search that may look at enough wall times finds an occurrence. -/
theorem search_returns (civil : CivilZone (calculator.zoneInfo timezone))
    (enumerates : calculator.croniter.Enumerates cron matching)
    (known : requireIanaTimezone calculator.zones timezone "schedule timezone" = .ok ())
    {last : Time} (late : (last : Int) + 4 * civilDay < endOfTime)
    (decisive : (calculator.zoneInfo timezone).localTime afterUtc +
      (maxWallCandidates - 1 : Nat) * minute < last) {steps : Nat}
    {position : Time} (early : 2 * (civilDay : Int) ≤ position)
    (walked : calculator.croniter.walk cron (steps + 1) position = some last) :
    ∃ result, calculator.search cron timezone afterUtc (steps + 1) position = .ok result := by
  induction steps generalizing position with
  | zero =>
      obtain ⟨listed, ahead⟩ := walk_ahead enumerates walked
      rw [CronSupport.walk, Option.bind_eq_some_iff] at walked
      obtain ⟨wall, next, stop⟩ := walked
      obtain rfl : wall = last := Option.some.inj stop
      have behind : (position : Int) < wall := by
        exact_mod_cast (by simpa using ahead : position < wall)
      obtain ⟨found, attempt⟩ : ∃ found, calculator.candidate timezone afterUtc wall = .ok found :=
        candidate_returns civil known (enumerates.whole wall listed) (by omega) late
      rcases candidate_ok attempt with ⟨result, rfl, _⟩ | ⟨rfl, passed⟩
      · refine ⟨result, ?_⟩
        simp only [search, bind_ok, requireSome_ok]
        exact ⟨wall, next, some result, attempt, rfl⟩
      · -- The last wall time is too far behind the boundary to have been shown already.
        exfalso
        obtain ⟨instant, resolves⟩ :=
          resolveOrAdvance_returns civil (enumerates.whole wall listed) (by omega) late
        rcases resolveOrAdvance_ok resolves with ⟨_, same, stands⟩ | ⟨none, _⟩
        · obtain rfl := Option.some.inj same
          have order := passed instant stands
          obtain ⟨delay, shown, _, _⟩ := stands.reached
          have wide : (0 : Int) ≤ (maxWallCandidates - 1 : Nat) * minute := by positivity
          have drop := localAt_drop wide (show (instant : Int) ≤ afterUtc by exact_mod_cast order)
            (calculator.zoneInfo timezone).ordered civil.back
          have reached : (wall : Int) ≤ (calculator.zoneInfo timezone).localTime instant := by
            rw [shown]
            have nonnegative : (0 : Int) ≤ delay * minute := by positivity
            omega
          change (calculator.zoneInfo timezone).localTime instant ≤
            (calculator.zoneInfo timezone).localTime afterUtc + _ at drop
          linarith
        · cases none
  | succ steps ih =>
      obtain ⟨_, ahead⟩ := walk_ahead enumerates walked
      rw [CronSupport.walk, Option.bind_eq_some_iff] at walked
      obtain ⟨wall, next, onward⟩ := walked
      obtain ⟨⟨member, behind⟩, _⟩ := enumerates.next position wall next
      obtain ⟨_, further⟩ := walk_ahead enumerates onward
      have order : (position : Int) < wall := by exact_mod_cast behind
      have before : (wall : Int) < last := by
        have strict : wall < last := Nat.lt_of_le_of_lt (Nat.le_add_right wall _) further
        exact_mod_cast strict
      obtain ⟨found, attempt⟩ : ∃ found, calculator.candidate timezone afterUtc wall = .ok found :=
        candidate_returns civil known (enumerates.whole wall member) (by omega) (by omega)
      obtain ⟨later, searched⟩ := ih (show 2 * (civilDay : Int) ≤ wall by omega) onward
      rw [search]
      simp only [bind_ok, requireSome_ok]
      cases found with
      | none => exact ⟨later, wall, next, none, attempt, searched⟩
      | some result => exact ⟨result, wall, next, some result, attempt, rfl⟩

/-- The bounded search is long enough. -/
theorem nextOccurrenceAfter_returns {last : Time}
    (enumerates : calculator.croniter.Enumerates cron matching)
    (civil : CivilZone (calculator.zoneInfo timezone))
    (valid : calculator.validateCron cron = .ok ())
    (known : requireIanaTimezone calculator.zones timezone "schedule timezone" = .ok ())
    (begun : 3 * civilDay ≤ afterUtc) (walked : calculator.croniter.walk cron maxWallCandidates
      ((calculator.zoneInfo timezone).localTime afterUtc).toNat = some last)
    (unfinished : last + 4 * civilDay < endOfTime) :
    ∃ result, calculator.nextOccurrenceAfter cron timezone afterUtc = .ok result := by
  have offset : -(civilDay : Int) ≤ offsetAt _ _ (afterUtc : Int) ∧ _ := civil.offsets.offsetAt
  have started : 3 * (civilDay : Int) ≤ afterUtc := by exact_mod_cast begun
  have nonnegative := Int.natCast_nonneg civilDay
  have early : 2 * (civilDay : Int) ≤ (calculator.zoneInfo timezone).localTime afterUtc := by
    rw [Zone.localTime]
    omega
  generalize boundaryIs : ((calculator.zoneInfo timezone).localTime afterUtc).toNat =
    boundary at walked
  have read : (boundary : Int) = (calculator.zoneInfo timezone).localTime afterUtc := by
    rw [← boundaryIs]
    exact Int.toNat_of_nonneg (by omega)
  have steps : maxWallCandidates = maxWallCandidates - 1 + 1 := rfl
  rw [steps] at walked
  obtain ⟨_, ahead⟩ := walk_ahead enumerates walked
  have late : (last : Int) + 4 * civilDay < endOfTime := by exact_mod_cast unfinished
  have decisive : (boundary : Int) + (maxWallCandidates - 1 : Nat) * minute < last := by
    exact_mod_cast ahead
  have inside : inCalendar ((calculator.zoneInfo timezone).localTime afterUtc) = .ok boundary := by
    rw [inCalendar_ok]
    have wide : (0 : Int) ≤ (maxWallCandidates - 1 : Nat) * minute := by positivity
    have before : (boundary : Int) < endOfTime := by omega
    exact ⟨read, by exact_mod_cast before⟩
  rw [read] at decisive
  obtain ⟨result, found⟩ :=
    search_returns civil enumerates known late decisive (read ▸ early) walked
  rw [← steps] at found
  refine ⟨result, ?_⟩
  unfold nextOccurrenceAfter
  generalize maxWallCandidates = candidates at found ⊢
  simp only [bind_ok]
  exact ⟨(), valid, (), by rw [known]; rfl, boundary, inside, by rw [found]; rfl⟩

end CroniterRecurrenceCalculator

/-- A selected occurrence is the first instant behind its boundary that a matching wall time stands
for, each of them at the first time the clocks show it, and it tells a wall time that the clocks
leave out.  Only between the clock change and the next whole minute, where a zone changes within a
minute, one of these may have been passed. The occurrences from a due time on, at which the clocks
show a whole minute, are just the instants of the matching wall times, each of them once. -/
theorem cron_recurrence (calculator : CroniterRecurrenceCalculator) (cron timezone : String)
    (matching : Set Time) (enumerates : calculator.croniter.Enumerates cron matching) :
    (∀ (afterUtc : Time) (result : RecurrenceResult),
      calculator.nextOccurrenceAfter cron timezone afterUtc = .ok result →
      afterUtc < result.scheduledForUtc ∧
      result.validate (calendarZones calculator.zones) = .ok () ∧
        (∃ wall ∈ matching, WallResolves (calculator.zoneInfo timezone) wall
          result.scheduledForUtc ∧
          Evidence (calculator.zoneInfo timezone) timezone wall result) ∧
        ∀ wall ∈ matching, ∀ instant :
          Time, WallResolves (calculator.zoneInfo timezone) wall instant → afterUtc < instant →
          (calculator.zoneInfo timezone).localTime afterUtc < wall ∨
          (calculator.zoneInfo timezone).Shows wall ∨
            (calculator.zoneInfo timezone).Whole minute afterUtc →
          result.scheduledForUtc ≤ instant) ∧
    ∀ (due : Time) (count : Nat), (calculator.zoneInfo timezone).Whole minute due →
      (∀ index < count, ∃ result, calculator.nextOccurrenceAfter cron timezone
        (calculator.recurrence.occurrence cron timezone due index) = .ok result) →
      (∀ index < count, calculator.recurrence.occurrence cron timezone due index <
        calculator.recurrence.occurrence cron timezone due (index + 1)) ∧
      ∀ instant : Time, due < instant → instant ≤
        calculator.recurrence.occurrence cron timezone due count →
        ((∃ wall ∈ matching, WallResolves (calculator.zoneInfo timezone) wall instant) ↔
          ∃ index, 1 ≤ index ∧ index ≤ count ∧
            calculator.recurrence.occurrence cron timezone due index = instant) :=
  ⟨fun _ _ calculated => CroniterRecurrenceCalculator.nextOccurrenceAfter_least
    enumerates calculated, fun _ count whole calculated =>
      CroniterRecurrenceCalculator.occurrences_exact enumerates whole count calculated⟩

/-- The bounded search is long enough: a calculation whose texts are valid returns unless the
calendar ends. -/
theorem cron_recurrence_returns (calculator : CroniterRecurrenceCalculator) (cron timezone : String)
    (matching : Set Time)
    (afterUtc last : Time) (enumerates : calculator.croniter.Enumerates cron matching)
    (civil : CivilZone (calculator.zoneInfo timezone))
    (valid : calculator.validateCron cron = .ok ())
    (known : requireIanaTimezone calculator.zones timezone "schedule timezone" = .ok ())
    (begun : 3 * civilDay ≤ afterUtc) (walked : calculator.croniter.walk cron maxWallCandidates
      ((calculator.zoneInfo timezone).localTime afterUtc).toNat = some last)
    (unfinished : last + 4 * civilDay < endOfTime) :
    ∃ result, calculator.nextOccurrenceAfter cron timezone afterUtc = .ok result :=
  CroniterRecurrenceCalculator.nextOccurrenceAfter_returns enumerates civil valid known begun
    walked unfinished

namespace Minutely

/-- An hour ahead from the tenth to the two hundredth day. -/
def summer : Zone where
  first := 0
  transitions := [⟨14400 * minute, 60 * minute⟩, ⟨288000 * minute, 0⟩]
  ordered := by
    have positive := CroniterRecurrenceCalculator.minute_pos
    refine ⟨?_, ?_, trivial⟩
    · intro next follows
      obtain rfl := Option.some.inj follows
      simp only
      omega
    · intro next follows
      cases follows

def calculator : CroniterRecurrenceCalculator where
  zones := {
    strip := id
    words := fun _ => 1
    knownTimezone := fun _ => true
    minuteAligned := nominalLocal
    localSnapshot := fun _ name => (name, 0) }
  zoneInfo := fun _ => summer
  croniter :=
    { isValid := fun _ => true,
      getNext := fun _ position => some ((position / minute + 1) * minute) }

def minutes : Set Time := {wall | minute ∣ wall}

theorem enumerates : calculator.croniter.Enumerates "* * * * *" minutes where
  whole _ member := member
  next position wall next := by
    have positive : 0 < minute := by exact_mod_cast CroniterRecurrenceCalculator.minute_pos
    obtain rfl : (position / minute + 1) * minute = wall := Option.some.inj next
    refine ⟨⟨Dvd.intro_left _ rfl, ?_⟩, ?_⟩
    · rw [Nat.mul_comm]
      exact Nat.lt_mul_div_succ position positive
    · rintro other ⟨⟨count, rfl⟩, later⟩
      rw [Nat.mul_comm minute count]
      refine Nat.mul_le_mul_right minute ?_
      by_contra few
      have small := (Nat.le_div_iff_mul_le positive).mp (show count ≤ position / minute by omega)
      rw [Nat.mul_comm] at small
      exact absurd later (Nat.not_lt.mpr small)

theorem walk_eq (steps : Nat) (start : Nat) :
    calculator.croniter.walk "* * * * *" steps (start * minute) =
      some ((start + steps) * minute) := by
  have positive : 0 < minute := by exact_mod_cast CroniterRecurrenceCalculator.minute_pos
  induction steps generalizing start with
  | zero => rfl
  | succ steps ih =>
      have next : calculator.croniter.getNext "* * * * *" (start * minute) =
          some ((start + 1) * minute) := by
        change some ((start * minute / minute + 1) * minute) = _
        rw [Nat.mul_div_cancel start positive]
      rw [CronSupport.walk, next, Option.bind_some, ih]
      congr 2
      omega

theorem civil : CivilZone summer := by
  have positive := CroniterRecurrenceCalculator.minute_pos
  have candidates : ((maxWallCandidates - 1 : Nat) : Int) = 511 := by decide
  have advance : (maxNonexistentAdvanceMinutes : Int) = 2880 := by decide
  have day : (civilDay : Int) = 1440 * minute := by
    rw [civilDay]
    push_cast
    rfl
  constructor
  · exact ⟨Int.dvd_zero _, Dvd.intro_left _ rfl, Dvd.intro_left _ rfl, Dvd.intro_left _ rfl,
      Int.dvd_zero _⟩
  · rw [candidates]
    refine ⟨?_, ?_, trivial⟩ <;> simp only [summer] <;> omega
  · rw [advance]
    refine ⟨?_, ?_, trivial⟩ <;> simp only [summer] <;> omega
  · rw [day]
    refine ⟨⟨?_, ?_⟩, ⟨?_, ?_⟩, ?_, ?_⟩ <;> simp only [summer] <;> omega

theorem summer_before {instant : Int} (before : instant < 14400 * minute) :
    summer.localTime instant = instant := by
  change localAt 0 _ _ = _
  rw [summer, localAt_before before, Int.add_zero]

theorem summer_after {instant : Int} (after : 14400 * minute ≤ instant) :
    14460 * minute ≤ summer.localTime instant := by
  change _ ≤ localAt 0 _ _
  rw [summer, localAt_after after]
  by_cases within : instant < 288000 * minute
  · rw [localAt_before within]
    simp only
    omega
  · rw [localAt_after (Int.not_lt.mp within), localAt, offsetAt]
    simp only
    omega

theorem walked {start : Nat} (before : start < 14400) :
    calculator.croniter.walk "* * * * *" maxWallCandidates
    (summer.localTime (start * minute : Nat)).toNat =
      some ((start + maxWallCandidates) * minute) := by
  have positive : 0 < minute := by exact_mod_cast CroniterRecurrenceCalculator.minute_pos
  have early : ((start * minute : Nat) : Int) < 14400 * minute := by
    exact_mod_cast Nat.mul_lt_mul_of_pos_right before positive
  rw [summer_before early, Int.toNat_natCast]
  exact walk_eq maxWallCandidates start

theorem unfinished {start : Nat} (before : start < 14400) :
    (start + maxWallCandidates) * minute + 4 * civilDay < endOfTime := by
  have bound : (start + maxWallCandidates) * minute ≤ (14400 + maxWallCandidates) * minute :=
    Nat.mul_le_mul_right minute (by omega)
  refine Nat.lt_of_le_of_lt (Nat.add_le_add_right bound _) ?_
  rw [civilDay, minute]
  decide

theorem begun : 3 * civilDay ≤ 14399 * minute := by
  rw [civilDay]
  omega

theorem valid : calculator.validateCron "* * * * *" = .ok () := rfl

theorem known : requireIanaTimezone calculator.zones "Europe/London" "schedule timezone" = .ok () :=
  rfl

theorem change_resolves : WallResolves summer (14400 * minute) (14400 * minute) := by
  have positive := CroniterRecurrenceCalculator.minute_pos
  refine ⟨60, by decide, ⟨?_, ?_⟩, ?_⟩
  · change localAt 0 _ _ = _
    rw [summer, localAt_after (by push_cast; exact Int.le_refl _),
      localAt_before (by push_cast; omega)]
    push_cast
    ring
  · intro reading shown
    by_contra early
    push_cast at early
    have same : summer.localTime reading = reading := summer_before (by omega)
    have shows : summer.localTime reading = (14400 * minute : Nat) + (60 : Nat) * minute := shown
    rw [same] at shows
    push_cast at shows
    omega
  · rintro earlier few ⟨reading, shown⟩
    have bound : (earlier : Int) * minute < 60 * minute := by
      exact_mod_cast Nat.mul_lt_mul_of_pos_right few (by exact_mod_cast positive)
    push_cast at shown
    by_cases before : reading < 14400 * minute
    · rw [summer_before before] at shown
      have none : 0 ≤ (earlier : Int) * minute := by positivity
      omega
    · have after := summer_after (Int.not_lt.mp before)
      omega

end Minutely

open Minutely in
/-- The minute before the clocks are put forward is followed by the instant at which they are. -/
theorem cron_recurrence_minutes : ∃ result,
    calculator.nextOccurrenceAfter "* * * * *" "Europe/London" (14399 * minute) = .ok result ∧
      result.scheduledForUtc = 14400 * minute := by
  have positive := CroniterRecurrenceCalculator.minute_pos
  obtain ⟨result, calculated⟩ : ∃ result,
      calculator.nextOccurrenceAfter "* * * * *" "Europe/London" (14399 * minute) = .ok result :=
    CroniterRecurrenceCalculator.nextOccurrenceAfter_returns enumerates civil valid known begun
      (walked (by decide)) (unfinished (by decide))
  obtain ⟨later, _, ⟨wall, member, resolves, _⟩, least⟩ :=
    (cron_recurrence calculator "* * * * *" "Europe/London" minutes enumerates).1 _ _ calculated
  have boundary : summer.localTime (14399 * minute : Nat) < (14400 * minute : Nat) := by
    have before : ((14399 * minute : Nat) : Int) < 14400 * minute := by
      push_cast
      omega
    rw [summer_before before]
    push_cast
    omega
  have behind : 14399 * minute < 14400 * minute := by omega
  have bound := least (14400 * minute) (Dvd.intro_left _ rfl) (14400 * minute) change_resolves
    behind (.inl boundary)
  refine ⟨result, calculated, Nat.le_antisymm bound (Nat.not_lt.mp fun early => ?_)⟩
  obtain ⟨delay, _, shown, _⟩ := resolves
  have same : (result.scheduledForUtc : Int) = wall + delay * minute :=
    (summer_before (by exact_mod_cast early)).symm.trans shown.1
  obtain ⟨count, rfl⟩ : minute ∣ wall := member
  have whole : result.scheduledForUtc = minute * (count + delay) := by
    have cast : (result.scheduledForUtc : Int) = (minute * (count + delay) : Nat) := by
      rw [same]
      push_cast
      ring
    exact_mod_cast cast
  rw [whole, Nat.mul_comm _ minute] at later early
  have few := Nat.lt_of_mul_lt_mul_left later
  have many := Nat.lt_of_mul_lt_mul_left early
  omega

open Minutely in
theorem cron_recurrence_returns_minutes :
    ∃ result, calculator.nextOccurrenceAfter "* * * * *" "Europe/London"
      (14399 * minute) = .ok result :=
  cron_recurrence_returns calculator "* * * * *" "Europe/London" minutes
    (14399 * minute) _ enumerates civil valid known
    begun (walked (by decide)) (unfinished (by decide))

end MarketingAgents
