import Mathlib

namespace MarketingAgents.Library

/-! # Clocks of a time zone

A zone tells for every instant how far its clocks are ahead of universal time.
Clocks that are put back show some wall times twice, clocks that are put
forward leave some out.
-/

/-- From an instant on the clocks are ahead by an offset. -/
structure ZoneTransition where
  instant : Int
  offset : Int
deriving DecidableEq

/-- A zone changes its offset only when the wall times of the last change have passed. -/
def ZoneOrder : Int → List ZoneTransition → Prop
  | _, [] => True
  | current, change :: rest =>
      (∀ next ∈ rest.head?, change.instant < next.instant ∧
        change.instant + max current change.offset ≤ next.instant + min change.offset next.offset) ∧
      ZoneOrder change.offset rest

/-- A zone with its first offset and what changes it later. -/
structure Zone where
  first : Int
  transitions : List ZoneTransition
  ordered : ZoneOrder first transitions

def offsetAt (current : Int) : List ZoneTransition → Int → Int
  | [], _ => current
  | change :: rest, instant =>
    if instant < change.instant then current else offsetAt change.offset rest instant

/-- Whether the clocks show a wall time for the second time, by the last change before. -/
def repeatedAt (current : Int) : List ZoneTransition → Int → Bool
  | [], _ => false
  | change :: rest, instant =>
      if instant < change.instant then false
      else if rest.head?.any fun next => next.instant ≤
        instant then repeatedAt change.offset rest instant
      else instant - change.instant < current - change.offset

/-- The wall time from which on a change counts, for the first or the second reading of a wall
time. -/
def crossing (fold : Bool) (current : Int) (change : ZoneTransition) : Int :=
  change.instant + if fold then min current change.offset else max current change.offset

def wallOffset (fold : Bool) (current : Int) : List ZoneTransition → Int → Int
  | [], _ => current
  | change :: rest, wall =>
    if wall < crossing fold current change then current else wallOffset fold change.offset rest wall

namespace Zone

variable (zone : Zone)

def localTime (instant : Int) : Int := instant + offsetAt zone.first zone.transitions instant

def repeated (instant : Int) : Bool := repeatedAt zone.first zone.transitions instant

def toUniversal (fold : Bool) (wall : Int) : Int :=
  wall - wallOffset fold zone.first zone.transitions wall

/-- The clocks show the wall time at some instant. -/
def Shows (wall : Int) : Prop := ∃ instant, zone.localTime instant = wall

end Zone

section

variable {current wall instant : Int} {change : ZoneTransition}
  {transitions rest : List ZoneTransition}

def localAt (current : Int) (transitions : List ZoneTransition) (instant : Int) : Int :=
  instant + offsetAt current transitions instant

theorem localAt_before (before : instant < change.instant) :
    localAt current (change :: rest) instant = instant + current := by
  rw [localAt, offsetAt, if_pos before]

theorem localAt_after (after : change.instant ≤ instant) :
    localAt current (change :: rest) instant = localAt change.offset rest instant := by
  rw [localAt, offsetAt, if_neg (Int.not_lt.mpr after), localAt]

/-- Behind a change the clocks never fall below what it sets them to. -/
theorem change_le_localAt : ∀ {rest : List ZoneTransition} {current : Int}
    {change : ZoneTransition}, ZoneOrder current (change :: rest) → change.instant ≤ instant →
      change.instant + change.offset ≤ localAt change.offset rest instant
  | [], _, _, _, after => by
      rw [localAt, offsetAt]
      omega
  | next :: rest, current, change, ordered, after => by
      obtain ⟨apart, later⟩ := ordered
      obtain ⟨_, passed⟩ := apart next rfl
      by_cases before : instant < next.instant
      · rw [localAt_before before]
        omega
      · have reached := Int.not_lt.mp before
        have bound := change_le_localAt later reached
        rw [localAt_after reached]
        omega

/-- A change sets the clocks at its own instant. -/
theorem localAt_change (ordered : ZoneOrder current (change :: rest)) :
    localAt current (change :: rest) change.instant = change.instant + change.offset := by
  rw [localAt_after (Int.le_refl _)]
  cases rest with
  | nil => rfl
  | cons next rest => exact localAt_before (ordered.1 next rfl).1

/-- A shown wall time is shown at its first reading. -/
theorem earliest_reaches : ∀ {transitions : List ZoneTransition}
    {current : Int}, ZoneOrder current transitions →
    localAt current transitions instant = wall →
      localAt current transitions (wall - wallOffset false current transitions wall) = wall
  | [], current, _, _ => by
      rw [localAt, offsetAt, wallOffset]
      omega
  | change :: rest, current, ordered, shown => by
      rw [wallOffset, crossing, if_neg Bool.false_ne_true]
      split
      · rename_i early
        -- Between the two offsets there is nothing to show.
        have within : wall - current < change.instant := by
          by_contra late
          have after : change.instant ≤ instant := by
            by_contra before
            rw [localAt_before (by omega)] at shown
            omega
          have bound := change_le_localAt ordered after
          have same : localAt current (change :: rest) instant = _ := localAt_after after
          rw [← same, shown] at bound
          omega
        rw [localAt_before within]
        omega
      · rename_i late
        have after : change.instant ≤ instant := by
          by_contra before
          rw [localAt_before (by omega)] at shown
          omega
        rw [localAt_after after] at shown
        have reached := earliest_reaches ordered.2 shown
        have behind : change.instant ≤ wall - wallOffset false change.offset rest wall := by
          by_contra before
          cases rest with
          | nil =>
              rw [wallOffset] at before
              omega
          | cons next rest =>
              have apart := (ordered.1 next rfl).1
              rw [localAt_before (by omega)] at reached
              omega
        rw [localAt_after behind, reached]

/-- The first reading of a wall time is at the first instant at which the clocks are that far. -/
theorem earliest_first : ∀ {transitions : List ZoneTransition}
    {current : Int}, ZoneOrder current transitions →
    localAt current transitions (wall - wallOffset false current transitions wall) = wall →
      wall ≤ localAt current transitions instant →
        wall - wallOffset false current transitions wall ≤ instant
  | [], current, _, _, far => by
      rw [localAt, offsetAt] at far
      rw [wallOffset]
      omega
  | change :: rest, current, ordered, shown, far => by
      rw [wallOffset, crossing, if_neg Bool.false_ne_true] at shown ⊢
      split
      · rename_i early
        rw [if_pos early] at shown
        have within : wall - current < change.instant := by
          by_contra late
          have after : change.instant ≤ wall - current := by omega
          have bound := change_le_localAt ordered after
          rw [localAt_after after] at shown
          omega
        by_cases before : instant < change.instant
        · rw [localAt_before before] at far
          omega
        · omega
      · rename_i late
        rw [if_neg late] at shown
        have after : change.instant ≤ instant := by
          by_contra before
          rw [localAt_before (by omega)] at far
          omega
        have behind : change.instant ≤ wall - wallOffset false change.offset rest wall := by
          by_contra before
          rw [localAt_before (by omega)] at shown
          omega
        rw [localAt_after after] at far
        rw [localAt_after behind] at shown
        exact earliest_first ordered.2 shown far

/-- A wall time that is read for the second time was shown before. -/
theorem repeated_shown : ∀ {rest : List ZoneTransition} {current : Int} {change : ZoneTransition},
    ZoneOrder current (change :: rest) → repeatedAt current (change :: rest) instant = true →
      ∃ earlier < instant, localAt current (change :: rest) earlier =
        localAt current (change :: rest) instant ∧
        change.instant + min current change.offset ≤ localAt current (change :: rest) earlier
  | rest, current, change, ordered, twice => by
      rw [repeatedAt] at twice
      split at twice
      · cases twice
      · rename_i late
        have after : change.instant ≤ instant := Int.not_lt.mp late
        split at twice
        · rename_i reached
          cases rest with
          | nil => simp at reached
          | cons next rest =>
              obtain ⟨earlier, before, same, bound⟩ := repeated_shown ordered.2 twice
              obtain ⟨apart, passed⟩ := ordered.1 next rfl
              have inside : change.instant ≤ earlier := by
                by_contra outside
                rw [localAt_before (by omega)] at bound
                omega
              refine ⟨earlier, before, ?_, ?_⟩
              · rw [localAt_after inside, localAt_after after, same]
              · rw [localAt_after inside]
                omega
        · rename_i recent
          have shift : instant - change.instant < current - change.offset := by simpa using twice
          have shown : localAt current (change :: rest) instant = instant + change.offset := by
            rw [localAt_after after]
            cases rest with
            | nil => rfl
            | cons next rest => exact localAt_before (by simpa using recent)
          refine ⟨instant + change.offset - current, by omega, ?_, ?_⟩
          · rw [shown, localAt_before (by omega)]
            omega
          · rw [localAt_before (by omega)]
            omega

/-- No change puts the clocks back by more than a width. -/
def PutBack (width current : Int) : List ZoneTransition → Prop
  | [] => True
  | change :: rest => current - change.offset ≤ width ∧ PutBack width change.offset rest

/-- No change puts the clocks forward by more than a width. -/
def PutForward (width current : Int) : List ZoneTransition → Prop
  | [] => True
  | change :: rest => change.offset - current ≤ width ∧ PutForward width change.offset rest

/-- All changes and offsets are multiples of a step. -/
def OnGrid (step current : Int) : List ZoneTransition → Prop
  | [] => step ∣ current
  | change :: rest => step ∣ current ∧ step ∣ change.instant ∧ OnGrid step change.offset rest

/-- The clocks show a whole number of steps, or they change on whole steps only. -/
def Zone.Whole (zone : Zone) (step instant : Int) : Prop :=
  step ∣ zone.localTime instant ∨ OnGrid step zone.first zone.transitions

/-- All offsets are within a bound. -/
def OffsetsWithin (bound current : Int) : List ZoneTransition → Prop
  | [] => -bound ≤ current ∧ current ≤ bound
  | change :: rest => (-bound ≤ current ∧ current ≤ bound) ∧ OffsetsWithin bound change.offset rest

theorem OffsetsWithin.offsetAt {bound : Int} : ∀ {transitions : List ZoneTransition}
    {current : Int},
    OffsetsWithin bound current transitions → -bound ≤ offsetAt current transitions instant ∧
      offsetAt current transitions instant ≤ bound
  | [], _, within => within
  | change :: rest, current, within => by
      rw [Library.offsetAt]
      split
      · exact within.1
      · exact OffsetsWithin.offsetAt within.2

theorem OffsetsWithin.wallOffset {bound : Int} {fold : Bool} : ∀ {transitions : List ZoneTransition}
    {current : Int}, OffsetsWithin bound current transitions →
      -bound ≤ wallOffset fold current transitions wall ∧
        wallOffset fold current transitions wall ≤ bound
  | [], _, within => within
  | change :: rest, current, within => by
      rw [Library.wallOffset]
      split
      · exact within.1
      · exact OffsetsWithin.wallOffset within.2

/-- The clocks never fall behind by more than the largest change back. -/
theorem localAt_drop {width later : Int} (wide : 0 ≤ width) (order : instant ≤ later) :
    ∀ {transitions : List ZoneTransition}
    {current : Int}, ZoneOrder current transitions → PutBack width current transitions →
      localAt current transitions instant ≤ localAt current transitions later + width
  | [], _, _, _ => by
      rw [localAt, localAt, offsetAt, offsetAt]
      omega
  | change :: rest, current, ordered, narrow => by
      by_cases before : later < change.instant
      · rw [localAt_before before, localAt_before (by omega)]
        omega
      · have after : change.instant ≤ later := Int.not_lt.mp before
        rw [localAt_after after]
        by_cases early : instant < change.instant
        · have bound := change_le_localAt ordered after
          have back := narrow.1
          rw [localAt_before early]
          omega
        · rw [localAt_after (Int.not_lt.mp early)]
          exact localAt_drop wide order ordered.2 narrow.2

theorem floor_lt_iff {step limit : Int} (positive : 0 < step) (grid : step ∣ limit) :
    instant - instant % step < limit ↔ instant < limit := by
  obtain ⟨count, rfl⟩ := grid
  have floor : instant - instant % step = step * (instant / step) := by
    rw [Int.emod_def]
    ring
  rw [floor, Int.mul_lt_mul_left positive, Int.ediv_lt_iff_lt_mul positive, Int.mul_comm]

/-- On a grid of changes the clocks show the grid. -/
theorem localAt_floor {step : Int} (positive : 0 < step) : ∀ {transitions : List ZoneTransition}
    {current : Int},
    OnGrid step current transitions → localAt current transitions (instant - instant % step) =
      localAt current transitions instant - localAt current transitions instant % step
  | [], current, grid => by
      obtain ⟨times, rfl⟩ : step ∣ current := grid
      rw [localAt, localAt, offsetAt, offsetAt, Int.add_mul_emod_self_left]
      ring
  | change :: rest, current, grid => by
      obtain ⟨⟨times, rfl⟩, onGrid, later⟩ := grid
      by_cases before : instant < change.instant
      · rw [localAt_before before, localAt_before ((floor_lt_iff positive onGrid).mpr before),
          Int.add_mul_emod_self_left]
        ring
      · have floored : ¬instant - instant % step < change.instant :=
          fun early => before ((floor_lt_iff positive onGrid).mp early)
        rw [localAt_after (Int.not_lt.mp before), localAt_after (Int.not_lt.mp floored)]
        exact localAt_floor positive later

/-- From every wall time on the clocks soon show some time of the grid. -/
theorem localAt_bridge {step width : Int} (wide : 0 ≤ width) (whole : step ∣ wall) :
    ∀ {transitions : List ZoneTransition} {current : Int}, ZoneOrder current transitions →
    PutForward width current transitions →
      OnGrid step current transitions → ∃ instant, step ∣ localAt current transitions instant ∧
        wall ≤ localAt current transitions instant ∧
          localAt current transitions instant ≤ wall + width
  | [], current, _, _, _ => by
      refine ⟨wall - current, ?_⟩
      rw [localAt, offsetAt, Int.sub_add_cancel]
      exact ⟨whole, Int.le_refl _, by omega⟩
  | change :: rest, current, ordered, narrow, grid => by
      by_cases early : wall < change.instant + current
      · refine ⟨wall - current, ?_⟩
        rw [localAt_before (by omega), Int.sub_add_cancel]
        exact ⟨whole, Int.le_refl _, by omega⟩
      · have offset : step ∣ change.offset := by
          cases rest with
          | nil => exact grid.2.2
          | cons next rest => exact grid.2.2.1
        by_cases skipped : wall < change.instant + change.offset
        · have forward := narrow.1
          refine ⟨change.instant, ?_⟩
          rw [localAt_change ordered]
          exact ⟨Int.dvd_add grid.2.1 offset, by omega, by omega⟩
        · obtain ⟨instant, onGrid, reached, soon⟩ :=
            localAt_bridge wide whole ordered.2 narrow.2 grid.2.2
          have after : change.instant ≤ instant ∨ instant < change.instant := by omega
          rcases after with after | before
          · exact ⟨instant, by rw [localAt_after after]; exact ⟨onGrid, reached, soon⟩⟩
          · -- The later part of the zone shows nothing that far before its change.
            cases rest with
            | nil =>
                rw [localAt, offsetAt] at reached
                omega
            | cons next rest =>
                have apart := (ordered.1 next rfl).1
                rw [localAt_before (by omega)] at reached
                omega

end

namespace Zone

variable {zone : Zone} {wall instant : Int}

/-- A wall time is shown exactly if its first reading is. -/
theorem shows_iff : zone.Shows wall ↔ zone.localTime (zone.toUniversal false wall) = wall :=
  ⟨fun ⟨_, shown⟩ => earliest_reaches zone.ordered shown, fun reached => ⟨_, reached⟩⟩

theorem earliest (shown : zone.Shows wall) :
    IsLeast {instant | wall ≤ zone.localTime instant} (zone.toUniversal false wall) :=
  ⟨Int.le_of_eq (shows_iff.mp shown).symm, fun _ far =>
    earliest_first zone.ordered (shows_iff.mp shown) far⟩

/-- The first reading of a wall time is not its second one. -/
theorem earliest_single (shown : zone.Shows wall) :
    zone.repeated (zone.toUniversal false wall) = false := by
  by_contra twice
  have second : zone.repeated (zone.toUniversal false wall) = true := by simpa using twice
  obtain ⟨first, transitions, ordered⟩ := zone
  cases transitions with
  | nil => cases second
  | cons change rest =>
      obtain ⟨earlier, before, same, _⟩ := repeated_shown ordered second
      have least := (earliest shown).2 (show wall ≤ _
        from (same.trans (shows_iff.mp shown)).symm.le)
      exact absurd before (Int.not_lt.mpr least)

/-- The instant that a wall time stands for: the first at which the clocks show it, or show the next
step behind it that they show at all. -/
def Resolves (zone : Zone) (step : Int) (limit : Nat) (wall instant : Int) : Prop :=
  ∃ delay ≤ limit, IsLeast {reading | zone.localTime reading =
    wall + (delay : Nat) * step} instant ∧
    ∀ earlier < delay, ¬zone.Shows (wall + (earlier : Nat) * step)

variable {step other resolved after : Int} {limit : Nat}

theorem Resolves.of_reached {delay : Nat} (within : delay ≤ limit)
    (least : IsLeast {reading | wall + delay * step ≤ zone.localTime reading} instant)
    (shown : zone.localTime instant = wall + delay * step)
    (before : ∀ earlier < delay, ¬zone.Shows (wall + (earlier : Nat) * step)) :
      zone.Resolves step limit wall instant :=
  ⟨delay, within, ⟨shown, fun _ same => least.2 (Int.le_of_eq same.symm)⟩, before⟩

/-- The first instant that shows the wall time is the first at which the clocks are that far. -/
theorem Resolves.reached (resolves : zone.Resolves step limit wall instant) : ∃ delay : Nat,
    zone.localTime instant = wall + delay * step ∧
      (∀ reading, wall + delay * step ≤ zone.localTime reading → instant ≤ reading) ∧
      ∀ other : Nat, zone.Shows (wall + other * step) → delay ≤ other := by
  obtain ⟨delay, _, least, before⟩ := resolves
  have first := earliest ⟨_, least.1⟩
  have same : instant = zone.toUniversal false (wall + delay * step) :=
    Int.le_antisymm (least.2 (shows_iff.mp ⟨_, least.1⟩)) (first.2 (Int.le_of_eq least.1.symm))
  refine ⟨delay, least.1, fun reading far => ?_, fun other shows => ?_⟩
  · rw [same]
    exact first.2 far
  · by_contra less
    exact before other (by omega) shows

theorem Resolves.unique (one : zone.Resolves step limit wall instant)
    (two : zone.Resolves step limit wall resolved) :
    instant = resolved := by
  obtain ⟨delay, shown, least, before⟩ := one.reached
  obtain ⟨pause, later, first, earlier⟩ := two.reached
  obtain rfl : delay = pause := Nat.le_antisymm (before pause ⟨_, later⟩) (earlier delay ⟨_, shown⟩)
  exact Int.le_antisymm (least resolved (Int.le_of_eq later.symm))
    (first instant (Int.le_of_eq shown.symm))

/-- What is shown some steps behind a wall time bounds its instant. -/
theorem Resolves.bounded (positive : 0 < step)
    (resolves : zone.Resolves step limit wall instant) (count : Nat)
    (shown : zone.localTime after = wall + count * step) : instant ≤ after := by
  obtain ⟨delay, _, least, before⟩ := resolves.reached
  have soon : (delay : Int) ≤ count := Int.ofNat_le.mpr (before count ⟨_, shown⟩)
  refine least after ?_
  rw [shown]
  exact Int.add_le_add_left (Int.mul_le_mul_of_nonneg_right soon positive.le) wall

/-- Later steps resolve no earlier. -/
theorem Resolves.monotone (positive : 0 < step) (whole : step ∣ other - wall) (order : wall ≤ other)
    (one : zone.Resolves step limit wall instant) (two : zone.Resolves step limit other resolved) :
      instant ≤ resolved := by
  obtain ⟨pause, later, _, _⟩ := two.reached
  obtain ⟨places, same⟩ := whole
  have forward : 0 ≤ places := by
    by_contra negative
    have product := Int.mul_neg_of_pos_of_neg positive (Int.not_le.mp negative)
    omega
  obtain ⟨between, rfl⟩ := Int.eq_ofNat_of_zero_le forward
  refine one.bounded positive (between + pause) ?_
  rw [later]
  push_cast
  linarith

/-- The last whole step before an instant was shown, unless the clocks changed within it. -/
theorem Whole.floored (positive : 0 < step) (whole : zone.Whole step after) :
    ∃ reading ≤ after, zone.localTime reading =
      zone.localTime after - zone.localTime after % step := by
  rcases whole with shown | grid
  · exact ⟨after, Int.le_refl _, by rw [Int.emod_eq_zero_of_dvd shown, Int.sub_zero]⟩
  · refine ⟨after - after % step, ?_, localAt_floor positive grid⟩
    have remainder := Int.emod_nonneg after (Int.ne_of_gt positive)
    omega

theorem Resolves.whole (whole : step ∣ wall) (resolves : zone.Resolves step limit wall instant) :
    zone.Whole step instant := by
  obtain ⟨delay, _, least, _⟩ := resolves
  have shown : zone.localTime instant = wall + delay * step := least.1
  refine .inl ?_
  rw [shown]
  exact Int.dvd_add whole (Dvd.intro_left _ rfl)

/-- A step that the clocks have shown, or passed where they show whole steps, has been resolved. -/
theorem Resolves.passed (positive : 0 < step) (whole : step ∣ wall)
    (passed : wall ≤ zone.localTime after) (exact : zone.Shows wall ∨ zone.Whole step after)
    (resolves : zone.Resolves step limit wall instant) :
    instant ≤ after := by
  rcases exact with shows | grid
  · obtain ⟨delay, _, least, before⟩ := resolves.reached
    have direct : delay = 0 := Nat.le_zero.mp (before 0 (by simpa using shows))
    subst direct
    exact least after (by simpa using passed)
  · -- The last whole step is shown a whole number of steps later than the wall time.
    obtain ⟨reading, before, floored⟩ := grid.floored positive
    obtain ⟨start, rfl⟩ := whole
    have quotient := Int.emod_add_mul_ediv (zone.localTime after) step
    have reached : start ≤ zone.localTime after / step := by
      rw [Int.le_ediv_iff_mul_le positive, Int.mul_comm]
      exact passed
    obtain ⟨count, same⟩ : ∃ count : Nat, zone.localTime after / step - start = count :=
      Int.eq_ofNat_of_zero_le (Int.sub_nonneg.mpr reached)
    have shown : zone.localTime reading = step * start + count * step := by
      rw [floored, ← same]
      linarith
    exact (resolves.bounded positive count shown).trans before

end Zone

end MarketingAgents.Library
