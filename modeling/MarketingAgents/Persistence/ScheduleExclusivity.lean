import Mathlib.Data.List.Nodup
import MarketingAgents.Library.Machine
import MarketingAgents.Persistence.ScheduleRepository

namespace MarketingAgents

open Library

/-! # Exclusive schedule claims

Any number of schedulers and of configuration updates work on one schedule.
What a method selected may be any row that was committed before its update.
-/

/-- A committed advance with the schedule before and after it. -/
structure ScheduleAdvance where
  claim : ScheduleClaim
  before : Schedule
  after : Schedule

/-- One schedule row with every row that it was, its occurrences, and the claims
and the advances that were committed. -/
structure ScheduleStore where
  row : ScheduleRecord
  history : List ScheduleRecord
  occurrences : List ScheduleOccurrence
  claims : List ScheduleClaim
  advances : List ScheduleAdvance

inductive ScheduleOperation where
  | tryClaim (request : ScheduleClaimRequest)
  | fenceClaim (claim : ScheduleClaim) (now : Time)
  | advance (claim : ScheduleClaim) (nextRunAtUtc completedAtUtc : Time)
      (nextRecurrence : Option RecurrenceResult)
  | configure (previous replacement : Schedule)
  | addOccurrence (occurrence : ScheduleOccurrence)

/-- The methods whose accepted calls write the row anew. -/
def ScheduleOperation.writesRow : ScheduleOperation → Bool
  | .tryClaim _ | .advance .. | .configure .. => true
  | .fenceClaim .. | .addOccurrence _ => false

/-- The identifier by which a method selects its row. -/
def ScheduleOperation.scheduleId : ScheduleOperation → String
  | .tryClaim request => request.scheduleId
  | .fenceClaim claim _ | .advance claim .. => claim.scheduleId
  | .configure previous _ => previous.id
  | .addOccurrence occurrence => occurrence.scheduleId

namespace ScheduleStore

def create (row : ScheduleRecord) : ScheduleStore where
  row := row
  history := [row]
  occurrences := []
  claims := []
  advances := []

def write (store : ScheduleStore) (row : ScheduleRecord) : ScheduleStore :=
  { store with row, history := row :: store.history }

/-- The row, when a method asks for it by its identifier. -/
def select (store : ScheduleStore) (scheduleId : String) : Option ScheduleRecord :=
  if store.row.schedule.id = scheduleId then some store.row else none

section

variable (zones : ZoneSupport) (digests : ScheduleDigests) (store : ScheduleStore)
  (current : ScheduleRecord)

/-- A method that selected the given row: the store when it was accepted. -/
def perform (operation : ScheduleOperation) : Except Rejection (Option ScheduleStore) :=
  let stored := store.select operation.scheduleId
  match operation with
  | .tryClaim request => do
      let claimed ← tryClaim zones digests request (some current) stored
      return claimed.map fun written =>
        { store.write written.1 with claims := written.2 :: store.claims }
  | .fenceClaim claim now => do
      let fenced ← fenceClaim zones digests claim now (some current) stored
      return if fenced then some store else none
  | .advance claim nextRunAtUtc completedAtUtc nextRecurrence => do
      let advanced ← advanceAndReleaseClaim zones digests claim nextRunAtUtc completedAtUtc
        nextRecurrence (some current) stored
      return advanced.map fun row =>
        { store.write row with
          advances := ⟨claim, store.row.schedule, row.schedule⟩ :: store.advances }
  | .configure previous replacement => do
      let configured ← compareAndSwapConfiguration zones digests previous replacement
        (some current) stored
      return configured.map store.write
  | .addOccurrence occurrence => do
      let added ← addOccurrenceOrGet store.occurrences occurrence
      return if added.2 then some { store with occurrences := added.1 :: store.occurrences }
        else none

/-- A refused method rolls its transaction back. -/
def after (operation : ScheduleOperation) : ScheduleStore :=
  match store.perform zones digests current operation with
  | .ok (some written) => written
  | .ok none | .error _ => store

/-- The holder of the claim may still fence or advance at the instant. -/
def Usable (claim : ScheduleClaim) (instant : Time) : Prop :=
  ∃ current ∈ store.history,
    fenceClaim zones digests claim instant (some current)
      (store.select claim.scheduleId) = .ok true ∨
    ∃ nextRunAtUtc nextRecurrence row,
      advanceAndReleaseClaim zones digests claim nextRunAtUtc instant nextRecurrence (some current)
        (store.select claim.scheduleId) = .ok (some row)

/-- Some scheduler is offered the row at the instant, or takes it. -/
def Claimable (instant : Time) : Prop :=
  (∃ boundOnly, store.row.claimableDue instant boundOnly = true) ∨
    ∃ current ∈ store.history, ∃ request : ScheduleClaimRequest, request.claimedAtUtc = instant ∧
      ∃ written, tryClaim zones digests request (some current) (store.select request.scheduleId) =
        .ok (some written)

end

end ScheduleStore

/-- Schedulers and configuration updates on a schedule, from its creation on. -/
def scheduleMachine (zones : ZoneSupport) (digests : ScheduleDigests) :
    Machine ScheduleStore (ScheduleRecord × ScheduleOperation) where
  initial store := ∃ schedule row, ScheduleRecord.create digests schedule = .ok row ∧
    store = .create row
  step store label after := label.1 ∈ store.history ∧
    after = store.after zones digests label.1 label.2

section

variable {zones : ZoneSupport} {digests : ScheduleDigests} {current stored : Option ScheduleRecord}

namespace ScheduleRecord

variable {record : ScheduleRecord} {claim : ScheduleClaim} {instant : Time}

theorem toDomain_ok {schedule : Schedule} (read : record.toDomain zones digests = .ok schedule) :
    schedule = record.schedule := by
  simp only [toDomain, bind_ok, pure_ok] at read
  obtain ⟨_, _, _, _, _, _, same⟩ := read
  exact same.symm

theorem claim?_ok (read : record.claim? zones = .ok (some claim)) :
    record.lease = some ⟨claim.leaseOwner, claim.claimedAtUtc, claim.leaseExpiresAtUtc⟩ ∧
      claim.scheduleId = record.schedule.id ∧ claim.scheduledForUtc = record.schedule.nextRunAtUtc ∧
      claim.recurrenceVersion = record.schedule.recurrenceVersion ∧
        claim.version = record.schedule.version := by
  unfold claim? at read
  split at read
  · cases read
  · rename_i lease leased
    simp only [bind_ok, pure_ok, Option.some.injEq] at read
    obtain ⟨_, _, rfl⟩ := read
    exact ⟨leased, rfl, rfl, rfl, rfl⟩

theorem heldBy_ok (held : record.heldBy claim instant = true) :
    record.schedule.version = claim.version ∧ record.schedule.enabled = true ∧
      record.schedule.nextRunAtUtc = claim.scheduledForUtc ∧
      record.lease = some ⟨claim.leaseOwner, claim.claimedAtUtc, claim.leaseExpiresAtUtc⟩ ∧
      claim.claimedAtUtc ≤ instant ∧ instant ≤ claim.leaseExpiresAtUtc := by
  simp only [heldBy, Bool.and_eq_true, decide_eq_true_eq] at held
  obtain ⟨⟨⟨⟨⟨⟨version, enabled⟩, due⟩, _⟩, lease⟩, claimed⟩, live⟩ := held
  exact ⟨version, enabled, due, lease, claimed, live⟩

theorem heldBy_not_claimable (held : record.heldBy claim instant = true) :
    record.claimable instant = false := by
  obtain ⟨_, _, _, lease, _, live⟩ := heldBy_ok held
  simp [claimable, lease, Nat.not_lt.mpr live]

end ScheduleRecord

theorem tryClaim_some {fresh : ScheduleRecord} {claim : ScheduleClaim}
    (taken : tryClaim zones digests request current stored = .ok (some (fresh, claim))) :
    ∃ selected row, current = some selected ∧ stored = some row ∧ request.offers selected = true ∧
      request.offers row = true ∧ row.integrityDigest = selected.integrityDigest ∧
      fresh = request.claimed digests selected row ∧
      fresh.toDomain zones digests = .ok fresh.schedule ∧
      fresh.claim? zones = .ok (some claim) := by
  simp only [tryClaim, bind_ok] at taken
  obtain ⟨_, _, taken⟩ := taken
  split at taken
  · rename_i selected row
    simp only [bind_ok] at taken
    obtain ⟨_, _, taken⟩ := taken
    split at taken
    · rename_i offered
      unfold ScheduleClaimRequest.claim at taken
      split at taken
      · rename_i matched
        simp only [Bool.and_eq_true, decide_eq_true_eq] at matched
        simp only [bind_ok, pure_ok, requireSome_ok, Option.some.injEq, Prod.mk.injEq] at taken
        obtain ⟨domain, hydrated, _, held, _, rfl, rfl, rfl⟩ := taken
        have read := ScheduleRecord.toDomain_ok hydrated
        exact ⟨selected, row, rfl, rfl, offered, matched.1, matched.2, rfl, read ▸ hydrated, held⟩
      · cases taken
    · cases taken
  · cases taken

theorem fenceClaim_true {now : Time}
    (fenced : fenceClaim zones digests claim now current stored = .ok true) :
    ∃ selected row, current = some selected ∧ stored = some row ∧
      selected.claim? zones = .ok (some claim) ∧ row.heldBy claim now = true ∧
      row.integrityDigest = selected.integrityDigest := by
  unfold fenceClaim at fenced
  split at fenced
  · cases fenced
  · split at fenced
    · rename_i selected row
      simp only [bind_ok, pure_ok, Bool.and_eq_true, decide_eq_true_eq] at fenced
      obtain ⟨_, _, held, read, ⟨rfl, holds⟩, matched⟩ := fenced
      exact ⟨selected, row, rfl, rfl, read, holds, matched⟩
    · cases fenced

/-- An advance moves the due instant of the claim that both rows hold. -/
theorem advanceAndReleaseClaim_some {nextRunAtUtc completedAtUtc : Time}
    (advanced : advanceAndReleaseClaim zones digests claim nextRunAtUtc completedAtUtc
      nextRecurrence current stored = .ok (some fresh)) :
    ∃ selected row, current = some selected ∧ stored = some row ∧
      selected.claim? zones = .ok (some claim) ∧ row.heldBy claim completedAtUtc = true ∧
      row.integrityDigest = selected.integrityDigest ∧ claim.scheduledForUtc < nextRunAtUtc ∧
      fresh.schedule = claim.advanced nextRunAtUtc nextRecurrence row.schedule ∧
      fresh.lease = none ∧
      fresh.toDomain zones digests = .ok fresh.schedule := by
  simp only [advanceAndReleaseClaim, bind_ok, require_ok] at advanced
  obtain ⟨_, later, _, _, advanced⟩ := advanced
  split at advanced
  · cases advanced
  · split at advanced
    · rename_i selected row
      simp only [bind_ok] at advanced
      obtain ⟨_, _, held, read, advanced⟩ := advanced
      split at advanced
      · rename_i same
        subst same
        simp only [bind_ok] at advanced
        obtain ⟨_, _, _, _, released⟩ := advanced
        unfold ScheduleClaim.release at released
        split at released
        · rename_i matched
          simp only [Bool.and_eq_true, decide_eq_true_eq] at matched
          simp only [bind_ok, pure_ok, Option.some.injEq] at released
          obtain ⟨domain, hydrated, rfl⟩ := released
          have fresh := ScheduleRecord.toDomain_ok hydrated
          exact ⟨selected, row, rfl, rfl, read, matched.1, matched.2, later, rfl, rfl,
            fresh ▸ hydrated⟩
        · cases released
      · cases advanced
    · cases advanced

theorem compareAndSwapConfiguration_some
    (swapped : compareAndSwapConfiguration zones digests previous replacement current stored =
      .ok (some fresh)) :
    ∃ selected row, current = some selected ∧ stored = some row ∧
      selected.toDomain zones digests = .ok previous ∧ row.schedule.version = previous.version ∧
      row.integrityDigest = selected.integrityDigest ∧ replacement.version = previous.version + 1 ∧
      fresh = ⟨row.schedule.configured replacement, none, digests.integrity replacement none⟩ := by
  simp only [compareAndSwapConfiguration, bind_ok, require_ok] at swapped
  obtain ⟨_, ⟨_, _, _, next, _, _⟩, swapped⟩ := swapped
  split at swapped
  · rename_i selected row
    simp only [bind_ok] at swapped
    obtain ⟨schedule, read, swapped⟩ := swapped
    split at swapped
    · rename_i same
      subst same
      simp only [bind_ok, require_ok] at swapped
      obtain ⟨_, _, swapped⟩ := swapped
      split at swapped
      · rename_i matched
        simp only [pure_ok, Option.some.injEq] at swapped
        exact ⟨selected, row, rfl, rfl, read, matched.1, matched.2, next, swapped.symm⟩
      · cases swapped
    · cases swapped
  · cases swapped

theorem addOccurrenceOrGet_new {occurrence added : ScheduleOccurrence}
    (inserted : addOccurrenceOrGet occurrences occurrence = .ok (added, true)) :
    added = occurrence ∧ ∀ existing ∈ occurrences, (existing.scheduleId, existing.scheduledForUtc) ≠
      (occurrence.scheduleId, occurrence.scheduledForUtc) := by
  simp only [addOccurrenceOrGet, bind_ok] at inserted
  obtain ⟨_, _, inserted⟩ := inserted
  split at inserted
  · simp only [bind_ok, pure_ok, Prod.mk.injEq] at inserted
    obtain ⟨_, _, _, impossible⟩ := inserted
    cases impossible
  · simp only [bind_ok, require_ok, pure_ok, Prod.mk.injEq, and_true] at inserted
    obtain ⟨_, fresh, rfl⟩ := inserted
    exact ⟨rfl, fresh⟩

end

namespace ScheduleStore

variable {zones : ZoneSupport} {digests : ScheduleDigests} {store next : ScheduleStore}
variable {current row : ScheduleRecord} {operation : ScheduleOperation}

/-- Versions number the rows that the schedule was; claims belong to one version
each, and a version that was advanced has passed. -/
structure Sound (zones : ZoneSupport) (store : ScheduleStore) : Prop where
  newest : store.row ∈ store.history
  versions : ∀ record ∈ store.history, record.schedule.version ≤ store.row.schedule.version ∧
    (record.schedule.version = store.row.schedule.version → record = store.row)
  claims : ∀ claim ∈ store.claims, claim.version ≤ store.row.schedule.version
  distinctClaims : (store.claims.map (·.version)).Nodup
  held : ∀ claim, store.row.claim? zones = .ok (some claim) → claim ∈ store.claims
  advances : ∀ advance ∈ store.advances, advance.claim ∈ store.claims ∧
    advance.claim.version < store.row.schedule.version ∧
      advance.before.nextRunAtUtc < advance.after.nextRunAtUtc
  distinctAdvances : (store.advances.map (·.claim.version)).Nodup
  occurrences : (store.occurrences.map fun occurrence =>
    (occurrence.scheduleId, occurrence.scheduledForUtc)).Nodup

theorem select_some (found : store.select scheduleId = some row) : row = store.row := by
  unfold select at found
  split at found
  · exact (Option.some.inj found).symm
  · cases found

theorem Sound.selected_row (sound : store.Sound zones) (member : current ∈ store.history)
    (agree : current.schedule.version = store.row.schedule.version) : current = store.row :=
  (sound.versions current member).2 agree

theorem Sound.write (sound : store.Sound zones)
    (fresh : row.schedule.version = store.row.schedule.version + 1)
    (unheld : row.lease = none) : (store.write row).Sound zones where
  newest := List.mem_cons_self
  versions record member := by
    rcases List.mem_cons.mp member with rfl | earlier
    · exact ⟨le_rfl, fun _ => rfl⟩
    · have bound := (sound.versions record earlier).1
      simp only [ScheduleStore.write]
      exact ⟨by omega, fun same => by omega⟩
  claims claim member := by
    have bound := sound.claims claim member
    simp only [ScheduleStore.write]
    omega
  distinctClaims := sound.distinctClaims
  held claim read := by
    obtain ⟨lease, _⟩ := ScheduleRecord.claim?_ok read
    rw [show (store.write row).row.lease = row.lease from rfl, unheld] at lease
    cases lease
  advances advance member := by
    obtain ⟨claimed, passed, later⟩ := sound.advances advance member
    refine ⟨claimed, ?_, later⟩
    simp only [ScheduleStore.write]
    omega
  distinctAdvances := sound.distinctAdvances
  occurrences := sound.occurrences

theorem Sound.tryClaim (sound : store.Sound zones)
    (accepted : store.perform zones digests current (.tryClaim request) = .ok (some next)) :
    next.Sound zones ∧ next.row.schedule.version = store.row.schedule.version + 1 := by
  simp only [perform, bind_ok, pure_ok, Option.map_eq_some_iff] at accepted
  obtain ⟨_, taken, ⟨fresh, claim⟩, rfl, rfl⟩ := accepted
  obtain ⟨selected, stored, _, found, _, offered, _, shape, _, held⟩ := tryClaim_some taken
  obtain rfl := select_some found
  simp only [ScheduleClaimRequest.offers, Bool.and_eq_true, decide_eq_true_eq] at offered
  have version : fresh.schedule.version = store.row.schedule.version + 1 := by
    rw [shape, offered.1.1.1.1]
    rfl
  have claimed : claim.version = fresh.schedule.version := (ScheduleRecord.claim?_ok held).2.2.2.2
  refine ⟨?_, version⟩
  constructor
  · exact List.mem_cons_self
  · intro record listed
    rcases List.mem_cons.mp listed with rfl | earlier
    · exact ⟨le_rfl, fun _ => rfl⟩
    · have bound := (sound.versions record earlier).1
      simp only [ScheduleStore.write]
      exact ⟨by omega, fun same => by omega⟩
  · intro other listed
    simp only [ScheduleStore.write]
    rcases List.mem_cons.mp listed with rfl | earlier
    · exact Nat.le_of_eq claimed
    · have bound := sound.claims other earlier
      omega
  · rw [List.map_cons, List.nodup_cons]
    refine ⟨fun repeated => ?_, sound.distinctClaims⟩
    obtain ⟨other, earlier, same⟩ := List.mem_map.mp repeated
    have bound := sound.claims other earlier
    dsimp only at same
    omega
  · intro other read
    have same : (some claim : Option ScheduleClaim) = some other :=
      Except.ok.inj (held.symm.trans read)
    rw [Option.some.inj same]
    exact List.mem_cons_self
  · intro advance listed
    obtain ⟨known, passed, later⟩ := sound.advances advance listed
    refine ⟨List.mem_cons_of_mem _ known, ?_, later⟩
    simp only [ScheduleStore.write]
    omega
  · exact sound.distinctAdvances
  · exact sound.occurrences

theorem Sound.advance {nextRunAtUtc completedAtUtc : Time}
    (sound : store.Sound zones) (member : current ∈ store.history)
    (accepted : store.perform zones digests current
      (.advance claim nextRunAtUtc completedAtUtc nextRecurrence) = .ok (some next)) :
    next.Sound zones ∧ next.row.schedule.version = store.row.schedule.version + 1 := by
  simp only [perform, bind_ok, pure_ok, Option.map_eq_some_iff] at accepted
  obtain ⟨_, advanced, fresh, rfl, rfl⟩ := accepted
  obtain ⟨selected, stored, same, found, read, held, _, later, shape, unheld, _⟩ :=
    advanceAndReleaseClaim_some advanced
  obtain rfl := Option.some.inj same
  obtain rfl := select_some found
  obtain ⟨version, _, due, _⟩ := ScheduleRecord.heldBy_ok held
  have fresher : fresh.schedule.version = store.row.schedule.version + 1 := by
    rw [shape, version]
    rfl
  -- The claim was read from the very version that the update found.
  have selectedVersion := (ScheduleRecord.claim?_ok read).2.2.2.2
  have whole := sound.selected_row member (selectedVersion.symm.trans version.symm)
  have issued : claim ∈ store.claims := sound.held claim (whole ▸ read)
  have written := sound.write fresher unheld
  refine ⟨{ written with advances := ?_, distinctAdvances := ?_ }, fresher⟩
  · intro advance listed
    rcases List.mem_cons.mp listed with rfl | earlier
    · refine ⟨issued, ?_, ?_⟩
      · simp only [ScheduleStore.write]
        omega
      · rw [due, shape]
        exact later
    · exact written.advances advance earlier
  · rw [List.map_cons, List.nodup_cons]
    refine ⟨fun repeated => ?_, sound.distinctAdvances⟩
    obtain ⟨other, earlier, same⟩ := List.mem_map.mp repeated
    have passed := (sound.advances other earlier).2.1
    dsimp only at same
    omega

theorem Sound.configure (sound : store.Sound zones)
    (accepted : store.perform zones digests current (.configure previous replacement) =
      .ok (some next)) :
    next.Sound zones ∧ next.row.schedule.version = store.row.schedule.version + 1 := by
  simp only [perform, bind_ok, pure_ok, Option.map_eq_some_iff] at accepted
  obtain ⟨_, swapped, fresh, rfl, rfl⟩ := accepted
  obtain ⟨selected, stored, _, found, _, version, _, next, rfl⟩ :=
    compareAndSwapConfiguration_some swapped
  obtain rfl := select_some found
  have fresher : (store.row.schedule.configured replacement).version =
      store.row.schedule.version + 1 := by
    rw [version, ← next]
    rfl
  exact ⟨sound.write fresher rfl, fresher⟩

/-- An accepted method keeps the store sound; a write raises the version by one. -/
theorem Sound.perform (sound : store.Sound zones) (member : current ∈ store.history)
    (accepted : store.perform zones digests current operation = .ok (some next)) :
    next.Sound zones ∧ (operation.writesRow = true →
      next.row.schedule.version = store.row.schedule.version + 1) ∧
      (operation.writesRow = false → next.row = store.row) := by
  cases operation with
  | tryClaim request =>
      obtain ⟨kept, version⟩ := sound.tryClaim accepted
      exact ⟨kept, fun _ => version, nofun⟩
  | advance claim nextRunAtUtc completedAtUtc nextRecurrence =>
      obtain ⟨kept, version⟩ := sound.advance member accepted
      exact ⟨kept, fun _ => version, nofun⟩
  | configure previous replacement =>
      obtain ⟨kept, version⟩ := sound.configure accepted
      exact ⟨kept, fun _ => version, nofun⟩
  | fenceClaim claim now =>
      simp only [ScheduleStore.perform, bind_ok, pure_ok] at accepted
      obtain ⟨fenced, _, same⟩ := accepted
      split at same
      · cases same
        exact ⟨sound, nofun, fun _ => rfl⟩
      · cases same
  | addOccurrence occurrence =>
      simp only [ScheduleStore.perform, bind_ok, pure_ok] at accepted
      obtain ⟨⟨added, fresh⟩, inserted, same⟩ := accepted
      cases fresh with
      | false => cases same
      | true =>
          cases same
          obtain ⟨rfl, first⟩ := addOccurrenceOrGet_new inserted
          refine ⟨{ sound with occurrences := ?_ }, nofun, fun _ => rfl⟩
          rw [List.map_cons, List.nodup_cons]
          refine ⟨fun repeated => ?_, sound.occurrences⟩
          obtain ⟨other, listed, same⟩ := List.mem_map.mp repeated
          exact first other listed same

theorem Sound.after (sound : store.Sound zones) (member : current ∈ store.history) :
    (store.after zones digests current operation).Sound zones := by
  unfold ScheduleStore.after
  split
  · rename_i written accepted
    exact (sound.perform member accepted).1
  · exact sound
  · exact sound

theorem sound_create (created : ScheduleRecord.create digests schedule = .ok row) :
    (create row).Sound zones where
  newest := List.mem_singleton_self row
  versions record member := by
    rw [List.mem_singleton.mp member]
    exact ⟨le_rfl, fun _ => rfl⟩
  claims claim member := absurd member List.not_mem_nil
  distinctClaims := List.nodup_nil
  held claim read := by
    obtain ⟨lease, _⟩ := ScheduleRecord.claim?_ok read
    simp only [ScheduleRecord.create, bind_ok, pure_ok] at created
    obtain ⟨_, _, rfl⟩ := created
    cases lease
  advances advance member := absurd member List.not_mem_nil
  distinctAdvances := List.nodup_nil
  occurrences := List.nodup_nil

theorem sound_of_reachable (reached : (scheduleMachine zones digests).Reachable store) :
    store.Sound zones := by
  refine Machine.Reachable.invariant (Sound zones) reached ?_ ?_
  · rintro store ⟨schedule, row, created, rfl⟩
    exact sound_create created
  · rintro store ⟨current, operation⟩ next sound ⟨member, rfl⟩
    exact sound.after member

theorem Usable.heldBy {instant : Time} (usable : store.Usable zones digests claim instant) :
    store.row.heldBy claim instant = true := by
  obtain ⟨current, _, fenced | ⟨_, _, _, advanced⟩⟩ := usable
  · obtain ⟨_, stored, _, found, _, held, _⟩ := fenceClaim_true fenced
    rwa [select_some found] at held
  · obtain ⟨_, stored, _, found, _, held, _⟩ := advanceAndReleaseClaim_some advanced
    rwa [select_some found] at held

theorem Claimable.claimable {instant : Time} (claimable : store.Claimable zones digests instant) :
    store.row.claimable instant = true := by
  obtain ⟨_, offered⟩ | ⟨current, _, request, rfl, ⟨fresh, claim⟩, taken⟩ := claimable
  · simp only [ScheduleRecord.claimableDue, Bool.and_eq_true] at offered
    exact offered.1.2
  · obtain ⟨_, stored, _, found, _, offered, _⟩ := tryClaim_some taken
    obtain rfl := select_some found
    simp only [ScheduleClaimRequest.offers, Bool.and_eq_true] at offered
    exact offered.2

end ScheduleStore

/-- Of every claim version at most one holder commits an advance, every due
instant has one occurrence, accepted writes raise the version, advances raise the
due instant, and a usable lease is not claimable. -/
theorem scheduleClaims_exclusive (zones : ZoneSupport) (digests : ScheduleDigests)
    {store : ScheduleStore} (reached : (scheduleMachine zones digests).Reachable store) :
    (store.advances.map (·.claim.version)).Nodup ∧ (store.claims.map (·.version)).Nodup ∧
      (∀ advance ∈ store.advances, advance.claim ∈ store.claims) ∧
      (store.occurrences.map fun occurrence =>
        (occurrence.scheduleId, occurrence.scheduledForUtc)).Nodup ∧
      (∀ current ∈ store.history, ∀ operation next,
        store.perform zones digests current operation = .ok (some next) →
        (operation.writesRow = true → store.row.schedule.version < next.row.schedule.version) ∧
        (operation.writesRow = false → next.row = store.row)) ∧
      (∀ advance ∈ store.advances, advance.before.nextRunAtUtc < advance.after.nextRunAtUtc) ∧
      (∀ claim instant, store.Usable zones digests claim instant →
        claim.version = store.row.schedule.version ∧ ¬ store.Claimable zones digests instant) := by
  have sound := ScheduleStore.sound_of_reachable reached
  refine ⟨sound.distinctAdvances, sound.distinctClaims,
    fun advance member => (sound.advances advance member).1,
    sound.occurrences, ?_, fun advance member => (sound.advances advance member).2.2, ?_⟩
  · intro current member operation next accepted
    obtain ⟨_, raised, kept⟩ := sound.perform member accepted
    exact ⟨fun writes => by rw [raised writes]; exact Nat.lt_succ_self _, kept⟩
  · intro claim instant usable
    have held := usable.heldBy
    refine ⟨(ScheduleRecord.heldBy_ok held).1.symm, fun claimable => ?_⟩
    have free := claimable.claimable
    rw [ScheduleRecord.heldBy_not_claimable held] at free
    cases free

namespace TakeoverExample

def zones : ZoneSupport where
  strip value := value
  words _ := 5
  knownTimezone timezone := timezone = "UTC"
  minuteAligned _ := true
  localSnapshot _ _ := ("1970-01-01T00:00:00.000000", 0)

def digests : ScheduleDigests where
  integrity schedule _ := toString schedule.version
  occurrenceId scheduleId _ _ := scheduleId

def schedule : Schedule where
  id := "schedule.digest"
  triggerId := "trigger.digest"
  instanceId := "instance.writer"
  workflowId := "workflow.digest"
  cron := "* * * * *"
  timezone := "UTC"
  nextRunAtUtc := 10
  misfirePolicy := .runOnce
  misfireGraceSeconds := 60
  enabled := true
  recurrenceVersion := scheduleRecurrenceVersion

def row : ScheduleRecord := ⟨schedule, none, "1"⟩

def first : ScheduleClaimRequest := ⟨"schedule.digest", 1, 10, "scheduler.first", 12, 20⟩

def second : ScheduleClaimRequest := ⟨"schedule.digest", 2, 10, "scheduler.second", 21, 30⟩

def firstClaim : ScheduleClaim :=
  ⟨"schedule.digest", 10, "scheduler.first", 12, 20, scheduleRecurrenceVersion, 2⟩

def secondClaim : ScheduleClaim :=
  ⟨"schedule.digest", 10, "scheduler.second", 21, 30, scheduleRecurrenceVersion, 3⟩

def claimed : ScheduleStore := (ScheduleStore.create row).after zones digests row (.tryClaim first)

def takenOver : ScheduleStore := claimed.after zones digests claimed.row (.tryClaim second)

def advanced : ScheduleStore :=
  takenOver.after zones digests takenOver.row (.advance secondClaim 70 25 none)

theorem advanced_reachable : (scheduleMachine zones digests).Reachable advanced := by
  have created : (scheduleMachine zones digests).Reachable (.create row) :=
    .start ⟨schedule, row, rfl, rfl⟩
  have first : (scheduleMachine zones digests).Reachable claimed :=
    Machine.Reachable.next (row, .tryClaim first) created ⟨List.mem_cons_self, rfl⟩
  have second : (scheduleMachine zones digests).Reachable takenOver :=
    Machine.Reachable.next (claimed.row, .tryClaim second) first
      ⟨(ScheduleStore.sound_of_reachable first).newest, rfl⟩
  exact Machine.Reachable.next (takenOver.row, .advance secondClaim 70 25 none) second
    ⟨(ScheduleStore.sound_of_reachable second).newest, rfl⟩

theorem advanced_row : advanced.claims = [secondClaim, firstClaim] ∧
    advanced.advances.map (·.claim) = [secondClaim] ∧ advanced.row.schedule.nextRunAtUtc = 70 ∧
      firstClaim.version ≠ advanced.row.schedule.version := by
  decide +kernel

end TakeoverExample

open TakeoverExample in
/-- Two claims were issued and one of them advanced; the first is never usable again. -/
theorem scheduleClaims_exclusive_takeover :
    advanced.claims = [secondClaim, firstClaim] ∧ advanced.advances.map (·.claim) = [secondClaim] ∧
      advanced.row.schedule.nextRunAtUtc = 70 ∧
      ∀ instant, ¬ advanced.Usable zones digests firstClaim instant := by
  obtain ⟨_, _, _, _, _, _, exclusive⟩ := scheduleClaims_exclusive zones digests advanced_reachable
  obtain ⟨claims, advances, next, passed⟩ := advanced_row
  refine ⟨claims, advances, next, fun instant usable => ?_⟩
  exact passed (exclusive firstClaim instant usable).1

end MarketingAgents
