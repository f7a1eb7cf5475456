import Mathlib
import MarketingAgents.Library.Machine
import MarketingAgents.Persistence.ScheduleExclusivity
import MarketingAgents.Services.InstanceConfigurations

namespace MarketingAgents

open Library

/-! # Interleaved configuration updates

Any number of updates and of schedulers work on the rows of one instance.  Up to
its swap an update may find any rows that were committed before; from the swap to
its commit it locks the configuration row, so the schedule rows that it finds then
were committed beside the row that it replaces.
-/

/-- The rows of one instance with every state they were committed in, and the
commands that changed them. -/
structure ConfigurationRun where
  origin : InstanceConfiguration
  store : ConfigurationStore
  history : List ConfigurationStore
  accepted : List UpdateInstanceConfigurationCommand

inductive ConfigurationStep where
  | update (principal : AuthenticatedPrincipal)
      (command : UpdateInstanceConfigurationCommand) (now : Time) (sight : UpdateSight)
  | tryClaim (selected : ScheduleRecord) (request : ScheduleClaimRequest)
  | advance (selected : ScheduleRecord) (claim : ScheduleClaim) (nextRunAtUtc completedAtUtc : Time)
      (nextRecurrence : Option RecurrenceResult)

def ConfigurationStore.revision (store : ConfigurationStore) : Nat :=
  store.record.configuration.configurationRevision

/-- The schedule row, when a scheduler asks for it by its identifier. -/
def ConfigurationStore.select (store : ConfigurationStore) (scheduleId : String) :
    Option ScheduleRecord :=
  store.schedule.filter fun row => row.schedule.id = scheduleId

/-- What a command makes of a configuration when it is accepted: the patch, sealed
and under the next revision. -/
def InstanceConfigurationService.acceptedChange (service : InstanceConfigurationService)
    (current : InstanceConfiguration) (command : UpdateInstanceConfigurationCommand) :
    Except Rejection InstanceConfiguration := do
  let constraints ← service.constraintsFor current.instanceId
  let patched ← command.patch.apply service.support current
  let bound ← service.bindCandidate command.patch constraints patched
  bound.withRevision service.support (current.configurationRevision + 1)

namespace ConfigurationRun

def create (digests : ConfigurationDigests) (configuration : InstanceConfiguration)
    (record : AgentInstanceConfigurationRecord) : ConfigurationRun :=
  let store : ConfigurationStore :=
    { record, triggers := triggerRows digests configuration, schedule := none, audits := [] }
  { origin := configuration, store, history := [store], accepted := [] }

variable (service : InstanceConfigurationService) (run : ConfigurationRun)

def write (store : ConfigurationStore) : ConfigurationRun :=
  { run with store, history := store :: run.history }

/-- What an update may find. -/
structure Sees (sight : UpdateSight) : Prop where
  record : ∃ earlier ∈ run.history, sight.record = earlier.record
  triggers : ∃ earlier ∈ run.history, sight.triggers = earlier.triggers
  schedules : ∀ found ∈ [sight.probed, sight.synchronized, sight.selected],
    ∃ earlier ∈ run.history, earlier.record = run.store.record ∧ found = earlier.schedule

/-- A scheduler may have selected any row that the schedule ever was. -/
def Selects (selected : ScheduleRecord) : Prop :=
  ∃ earlier ∈ run.history, earlier.schedule = some selected

def seen : ConfigurationStep → Prop
  | .update _ _ _ sight => run.Sees sight
  | .tryClaim selected _ | .advance selected .. => run.Selects selected

/-- The row that a scheduler writes when its statement is accepted. -/
def schedulerRow : ConfigurationStep → Except Rejection (Option ScheduleRecord)
  | .update .. => .ok none
  | .tryClaim selected request => do
      let claimed ← tryClaim service.support.toZoneSupport service.scheduleDigests request
        (some selected) (run.store.select request.scheduleId)
      return claimed.map (·.1)
  | .advance selected claim nextRunAtUtc completedAtUtc nextRecurrence =>
      advanceAndReleaseClaim service.support.toZoneSupport service.scheduleDigests claim
        nextRunAtUtc completedAtUtc
        nextRecurrence (some selected) (run.store.select claim.scheduleId)

/-- Only a changed update and an accepted scheduler statement commit. -/
def after (step : ConfigurationStep) : ConfigurationRun :=
  match step with
  | .update principal command now sight =>
      match service.update principal command now sight run.store with
      | .ok (store, ⟨_, true⟩) => { run.write store with accepted := run.accepted ++ [command] }
      | _ => run
  | _ =>
      match run.schedulerRow service step with
      | .ok (some row) => run.write { run.store with schedule := some row }
      | _ => run

end ConfigurationRun

/-- Updates and schedulers on an instance, from the insertion of its configuration on. -/
def configurationMachine (service : InstanceConfigurationService) :
    Machine ConfigurationRun ConfigurationStep where
  initial run := ∃ configuration record, configuration.build service.support = .ok configuration ∧
    configuration.toRecord service.digests = .ok record ∧
      run = .create service.digests configuration record
  step run step after := run.seen step ∧ after = run.after service step

/-- A committed state and a later one: revisions and schedule versions grow, and
rows of the same revision and of the same version are the same rows. -/
structure ConfigurationStore.Precedes (earlier later : ConfigurationStore) : Prop where
  revision : earlier.revision ≤ later.revision
  record : earlier.revision = later.revision →
    earlier.record = later.record ∧ earlier.schedule.isSome = later.schedule.isSome
  schedule : ∀ row, earlier.schedule = some row → ∃ next, later.schedule = some next ∧
    row.schedule.version ≤ next.schedule.version ∧
      (row.schedule.version = next.schedule.version → row = next)

theorem ConfigurationStore.Precedes.refl (store : ConfigurationStore) : store.Precedes store where
  revision := le_rfl
  record _ := ⟨rfl, rfl⟩
  schedule row present := ⟨row, present, le_rfl, fun _ => rfl⟩

theorem ConfigurationStore.Precedes.trans {first second third : ConfigurationStore}
    (before : first.Precedes second) (after : second.Precedes third) : first.Precedes third where
  revision := le_trans before.revision after.revision
  record same := by
    have grown := before.revision
    have grows := after.revision
    obtain ⟨record, present⟩ := before.record (by omega)
    obtain ⟨nextRecord, nextPresent⟩ := after.record (by omega)
    exact ⟨record.trans nextRecord, present.trans nextPresent⟩
  schedule row present := by
    obtain ⟨middle, found, grown, same⟩ := before.schedule row present
    obtain ⟨last, lastFound, grows, lastSame⟩ := after.schedule middle found
    refine ⟨last, lastFound, by omega, fun equal => ?_⟩
    rw [same (by omega), lastSame (by omega)]

/-- What a claim or an advance leaves of a schedule as it stands. -/
def Schedule.settings (schedule : Schedule) : Schedule :=
  { schedule with
    nextRunAtUtc := 0, nextRecurrence := none, lastScheduledAtUtc := none, version := 0 }

namespace ConfigurationRun

variable {service : InstanceConfigurationService} {run : ConfigurationRun}
  {row stored : ScheduleRecord}
  {principal : AuthenticatedPrincipal} {command : UpdateInstanceConfigurationCommand} {now : Time}
  {sight : UpdateSight} {after : ConfigurationStore} {current replacement : InstanceConfiguration}
  {constraints : InstanceConfigurationConstraints} {record : AgentInstanceConfigurationRecord}

theorem select_schedule (found : run.store.select scheduleId = some stored) :
    run.store.schedule = some stored :=
  (Option.filter_eq_some_iff.mp found).1

theorem schedulerRow_some {step : ConfigurationStep}
    (written : run.schedulerRow service step = .ok (some row)) :
    ∃ stored, run.store.schedule = some stored ∧
    row.schedule.version = stored.schedule.version + 1 ∧
      row.schedule.settings = stored.schedule.settings := by
  cases step with
  | update => cases written
  | tryClaim selected request =>
      simp only [schedulerRow, bind_ok, pure_ok, Option.map_eq_some_iff] at written
      obtain ⟨_, taken, ⟨fresh, claim⟩, rfl, rfl⟩ := written
      obtain ⟨_, stored, _, found, _, offered, _, shape, _⟩ := tryClaim_some taken
      simp only [ScheduleClaimRequest.offers, Bool.and_eq_true, decide_eq_true_eq] at offered
      refine ⟨stored, select_schedule found, ?_, ?_⟩
      · rw [shape, offered.1.1.1.1]
        rfl
      · rw [shape]
        rfl
  | advance selected claim nextRunAtUtc completedAtUtc nextRecurrence =>
      obtain ⟨_, stored, _, found, _, held, _, _, shape, _⟩ := advanceAndReleaseClaim_some written
      refine ⟨stored, select_schedule found, ?_, ?_⟩
      · rw [shape, (ScheduleRecord.heldBy_ok held).1]
        rfl
      · rw [shape]
        rfl

theorem writeSchedule_grows
    (wrote : service.writeSchedule selected before synchronization = .ok written)
    (present : before = some stored) :
    ∃ next, written.or before = some next ∧ stored.schedule.version ≤ next.schedule.version ∧
      (stored.schedule.version = next.schedule.version → stored = next) := by
  subst present
  cases synchronization with
  | nothing =>
      obtain rfl := Except.ok.inj wrote
      exact ⟨stored, rfl, le_rfl, fun _ => rfl⟩
  | create schedule =>
      simp only [InstanceConfigurationService.writeSchedule, addScheduleOrGet, bind_ok, pure_ok,
        require_ok] at wrote
      obtain ⟨_, ⟨_, _, _, _, _, _, rfl⟩, _, impossible, _⟩ := wrote
      cases impossible
  | replace previous replacement =>
      simp only [InstanceConfigurationService.writeSchedule, bind_ok, pure_ok,
        requireSome_ok] at wrote
      obtain ⟨_, swapped, next, rfl, rfl⟩ := wrote
      obtain ⟨_, _, _, found, _, version, _, grown, shape⟩ :=
        compareAndSwapConfiguration_some swapped
      obtain rfl := Option.some.inj found
      have fresh : next.schedule.version = stored.schedule.version + 1 := by
        rw [shape, version]
        exact grown
      exact ⟨next, rfl, by omega, fun same => by omega⟩

/-- The rows of a run: the configuration row is whole, its trigger rows repeat it,
and the accepted commands lead to it one revision after the other. -/
structure Sound (service : InstanceConfigurationService) (run : ConfigurationRun) : Prop where
  newest : run.store ∈ run.history
  history : ∀ earlier ∈ run.history, earlier.Precedes run.store
  built : run.store.record.configuration.build service.support = .ok run.store.record.configuration
  intact : run.store.record.integrityDigest =
    service.digests.integrity run.store.record.configuration
  triggers : run.store.triggers = triggerRows service.digests run.store.record.configuration
  folded : run.accepted.foldlM service.acceptedChange run.origin =
    .ok run.store.record.configuration
  numbered : run.accepted.map (·.expectedRevision) =
    List.range' run.origin.configurationRevision run.accepted.length
  revision : run.store.revision = run.origin.configurationRevision + run.accepted.length
  audited : run.store.audits.map (fun audit => (audit.previousRevision, audit.newRevision)) =
    run.accepted.map fun command => (command.expectedRevision, command.expectedRevision + 1)

theorem Sound.read_current (sound : run.Sound service) (sees : run.Sees sight)
    (read : service.read command.instanceId sight.record sight.triggers = .ok current)
    (swapped : run.store.revision = current.configurationRevision) :
    sight.record = run.store.record ∧ current = run.store.record.configuration := by
  obtain ⟨earlier, member, found⟩ := sees.record
  have built := (InstanceConfigurationService.read_ok read).2
  have revision : current.configurationRevision = earlier.revision := by
    rw [InstanceConfiguration.build_shape built, found]
    rfl
  have same := ((sound.history earlier member).record (by omega)).1
  refine ⟨found.trans same, ?_⟩
  rw [found, same, sound.built] at built
  exact (Except.ok.inj built).symm

theorem withRevision_ok {revision : Nat} {bound : InstanceConfiguration}
    (advanced : bound.withRevision service.support revision = .ok replacement) :
    replacement.build service.support = .ok replacement ∧
      replacement.configurationRevision = revision :=
  ⟨InstanceConfiguration.build_build advanced, by rw [InstanceConfiguration.build_shape advanced]⟩

/-- An accepted change of a sound run, statement by statement. -/
structure Accepted (service : InstanceConfigurationService) (run : ConfigurationRun)
    (command : UpdateInstanceConfigurationCommand) (replacement : InstanceConfiguration)
    (after : ConfigurationStore) : Prop where
  expected : run.store.revision = command.expectedRevision
  change : service.acceptedChange run.store.record.configuration command = .ok replacement
  built : replacement.build service.support = .ok replacement
  revision : replacement.configurationRevision = command.expectedRevision + 1
  record : after.record = ⟨replacement, service.digests.integrity replacement⟩
  triggers : after.triggers = triggerRows service.digests replacement
  audits : ∃ event, after.audits = run.store.audits ++ [event] ∧
    event.previousRevision = command.expectedRevision ∧
      event.newRevision = command.expectedRevision + 1
  precedes : run.store.Precedes after

theorem Sound.accepted (sound : run.Sound service) (sees : run.Sees sight)
    (updated : service.update principal command now sight run.store =
      .ok (after, ⟨replacement, true⟩)) :
    run.Accepted service command replacement after := by
  obtain ⟨constraints, current, record, accepts, read, prepared, swapped, changed⟩ :=
    InstanceConfigurationService.update_changed.mp updated
  obtain ⟨stands, instanceId, advanced, shape⟩ := compareAndSwap_some swapped
  obtain ⟨_, rfl⟩ := sound.read_current sees read stands
  obtain ⟨expected, patched, bound, applied, _, sealing, revised⟩ :=
    InstanceConfigurationService.prepare_some prepared
  obtain ⟨built, revision⟩ := withRevision_ok revised
  obtain ⟨synchronization, written, event, _, wrote, made, rfl⟩ :=
    InstanceConfigurationService.changed_ok.mp changed
  have named : run.store.record.configuration.instanceId = command.instanceId := by
    obtain ⟨named, built⟩ := InstanceConfigurationService.read_ok read
    rw [← named, InstanceConfiguration.build_shape built]
  simp only [InstanceConfigurationService.changedEvent, bind_ok, pure_ok, require_ok] at made
  obtain ⟨_, _, _, _, rfl⟩ := made
  exact {
    expected
    change := by
      simp only [InstanceConfigurationService.acceptedChange, bind_ok]
      exact ⟨constraints, named ▸ InstanceConfigurationService.accept_ok accepts, patched,
        applied, bound, sealing, revised⟩
    built
    revision := by rw [revision, expected]
    record := shape
    triggers := rfl
    audits := ⟨_, rfl, expected, by rw [revision, expected]⟩
    precedes := {
      revision := by
        simp only [ConfigurationStore.revision, shape]
        omega
      record same := by
        simp only [ConfigurationStore.revision, shape] at same
        omega
      schedule row present := writeSchedule_grows wrote present } }

theorem foldlM_append_one {α β : Type} {change : β → α → Except Rejection β}
    {origin middle final : β}
    {done : List α} {last : α} (earlier : done.foldlM change origin = .ok middle)
    (changed : change middle last = .ok final) :
      (done ++ [last]).foldlM change origin = .ok final := by
  rw [List.foldlM_append, earlier]
  change [last].foldlM change middle = .ok final
  rw [List.foldlM_cons, changed]
  rfl

theorem Sound.write (sound : run.Sound service) (precedes : run.store.Precedes after) :
    ∀ earlier ∈ (run.write after).history, earlier.Precedes after := by
  intro earlier member
  rcases List.mem_cons.mp member with rfl | before
  · exact .refl _
  · exact (sound.history earlier before).trans precedes

theorem Sound.update (sound : run.Sound service)
    (accepted : run.Accepted service command replacement after) :
    Sound service { run.write after with accepted := run.accepted ++ [command] } where
  newest := List.mem_cons_self
  history := sound.write accepted.precedes
  built := by
    simp only [ConfigurationRun.write, accepted.record]
    exact accepted.built
  intact := by simp only [ConfigurationRun.write, accepted.record]
  triggers := by simp only [ConfigurationRun.write, accepted.record, accepted.triggers]
  folded := by
    simp only [ConfigurationRun.write, accepted.record]
    exact foldlM_append_one sound.folded accepted.change
  numbered := by
    have revision := sound.revision
    have expected := accepted.expected
    simp only [ConfigurationRun.write, List.map_append, List.map_cons, List.map_nil,
      List.length_append, List.length_singleton]
    rw [List.range'_1_concat, sound.numbered, ← expected, revision]
  revision := by
    have revision := sound.revision
    have expected := accepted.expected
    have advanced := accepted.revision
    simp only [ConfigurationRun.write, ConfigurationStore.revision, accepted.record,
      List.length_append, List.length_cons, List.length_nil]
    omega
  audited := by
    obtain ⟨event, appended, previous, next⟩ := accepted.audits
    simp only [ConfigurationRun.write, appended, List.map_append, sound.audited,
      List.map_cons, List.map_nil, previous, next]

theorem Sound.schedule {step : ConfigurationStep} (sound : run.Sound service)
    (written : run.schedulerRow service step = .ok (some row)) :
    Sound service (run.write { run.store with schedule := some row }) := by
  obtain ⟨stored, present, version, _⟩ := schedulerRow_some written
  have precedes : run.store.Precedes { run.store with schedule := some row } := {
    revision := le_rfl
    record _ := ⟨rfl, by rw [present]; rfl⟩
    schedule before held := by
      rw [present] at held
      obtain rfl := Option.some.inj held
      exact ⟨row, rfl, by omega, fun same => by omega⟩ }
  exact {
    newest := List.mem_cons_self
    history := sound.write precedes
    built := sound.built
    intact := sound.intact
    triggers := sound.triggers
    folded := sound.folded
    numbered := sound.numbered
    revision := sound.revision
    audited := sound.audited }

theorem after_cases (service : InstanceConfigurationService) (run : ConfigurationRun)
    (step : ConfigurationStep) :
    (∃ principal command now sight store configuration, step = .update principal command now sight ∧
      service.update principal command now sight run.store = .ok (store, ⟨configuration, true⟩) ∧
      run.after service step = { run.write store with accepted := run.accepted ++ [command] }) ∨
    (∃ row, run.schedulerRow service step = .ok (some row) ∧
      run.after service step = run.write { run.store with schedule := some row }) ∨
    run.after service step = run := by
  cases step with
  | update principal command now sight =>
      simp only [after]
      split
      · rename_i store configuration updated
        exact .inl ⟨principal, command, now, sight, store, configuration, rfl, updated, rfl⟩
      · exact .inr (.inr rfl)
  | tryClaim | advance =>
      simp only [after]
      split
      · rename_i row written
        exact .inr (.inl ⟨row, written, rfl⟩)
      · exact .inr (.inr rfl)

theorem Sound.step {step : ConfigurationStep} (sound : run.Sound service) (seen : run.seen step) :
    (run.after service step).Sound service := by
  obtain ⟨principal, command, now, sight, store, configuration, rfl, updated, same⟩ |
      ⟨row, written, same⟩ | same :=
    after_cases service run step
  · exact same ▸ sound.update (sound.accepted seen updated)
  · exact same ▸ sound.schedule written
  · exact same.symm ▸ sound

theorem sound_create {configuration : InstanceConfiguration}
    (built : configuration.build service.support = .ok configuration)
    (written : configuration.toRecord service.digests = .ok record) :
    (create service.digests configuration record).Sound service := by
  simp only [InstanceConfiguration.toRecord, bind_ok, pure_ok] at written
  obtain ⟨_, _, rfl⟩ := written
  exact {
    newest := List.mem_singleton_self _
    history := fun earlier member => List.mem_singleton.mp member ▸ .refl _
    built
    intact := rfl
    triggers := rfl
    folded := rfl
    numbered := rfl
    revision := rfl
    audited := rfl }

theorem sound_of_reachable (reached : (configurationMachine service).Reachable run) :
    run.Sound service := by
  refine Machine.Reachable.invariant (Sound service) reached ?_ ?_
  · rintro run ⟨configuration, record, built, written, rfl⟩
    exact sound_create built written
  · rintro run step next sound ⟨seen, rfl⟩
    exact sound.step seen

theorem Sound.found_present (sound : run.Sound service) (sees : run.Sees sight)
    (found : Option ScheduleRecord)
    (member : found ∈ [sight.probed, sight.synchronized, sight.selected]) :
    found.isSome = run.store.schedule.isSome := by
  obtain ⟨earlier, listed, same, rfl⟩ := sees.schedules found member
  have revision : earlier.revision = run.store.revision := by
    rw [ConfigurationStore.revision, same]; rfl
  exact ((sound.history earlier listed).record revision).2

theorem Sound.found_row (sound : run.Sound service) (sees : run.Sees sight) (found : ScheduleRecord)
    (member : some found ∈ [sight.probed, sight.synchronized, sight.selected])
    (present : run.store.schedule = some stored)
    (version : found.schedule.version = stored.schedule.version) : found = stored := by
  obtain ⟨earlier, listed, _, same⟩ := sees.schedules _ member
  obtain ⟨next, held, _, equal⟩ := (sound.history earlier listed).schedule found same.symm
  obtain rfl := Option.mem_unique present held
  exact equal version

theorem synchronize_some {configuration : InstanceConfiguration}
    (synchronized : configuration.synchronize zones recurrence identities (some previous) now =
      .ok synchronization) :
    ∃ next, configuration.nextSelection zones recurrence previous now = .ok next ∧
      (configuration.projected previous next).validate zones = .ok () ∧
      synchronization = .replace previous (configuration.projected previous next) := by
  simp only [InstanceConfiguration.synchronize, bind_ok, pure_ok,
    Schedule.replace_ok] at synchronized
  obtain ⟨next, selected, _, ⟨valid, rfl⟩, rfl⟩ := synchronized
  exact ⟨next, selected, valid, rfl⟩

theorem readSchedule_some (read : service.readSchedule (some stored) = .ok previous) :
    ∃ schedule, previous = some schedule ∧
      stored.toDomain service.support.toZoneSupport service.scheduleDigests = .ok schedule := by
  simp only [InstanceConfigurationService.readSchedule, map_eq_pure_bind, bind_ok, pure_ok] at read
  obtain ⟨schedule, hydrated, rfl⟩ := read
  exact ⟨schedule, rfl, hydrated⟩

theorem projection_ok :
    service.projection constraints current replacement now sight = .ok synchronization ↔
      (service.projects constraints current replacement sight.probed = .ok false ∧
        synchronization = .nothing) ∨
      (service.projects constraints current replacement sight.probed = .ok true ∧
        ∃ previous, service.readSchedule sight.synchronized = .ok previous ∧
          replacement.synchronize service.support.toZoneSupport service.recurrence
            ⟨service.digests.configuredScheduleId, service.digests.triggerId⟩ previous now =
              .ok synchronization) := by
  simp only [InstanceConfigurationService.projection, bind_ok]
  constructor
  · rintro ⟨projects, decided, projected⟩
    cases projects
    · exact .inl ⟨decided, (Except.ok.inj projected).symm⟩
    · exact .inr ⟨decided, bind_ok.mp projected⟩
  · rintro (⟨decided, rfl⟩ | ⟨decided, projected⟩)
    · exact ⟨false, decided, rfl⟩
    · exact ⟨true, decided, bind_ok.mpr projected⟩

theorem projects_of_some {decision : Bool}
    (decided : service.projects constraints current replacement (some stored) = .ok decision) :
    decision = (current.scheduledInput.isSome || replacement.scheduledInput.isSome ||
      decide (.schedule ∈ constraints.supportedTriggerKinds)) := by
  unfold InstanceConfigurationService.projects at decided
  split at decided
  · rename_i input
    rw [input, ← Except.ok.inj decided]
    rfl
  · rename_i input
    rw [Bool.not_eq_true] at input
    rw [input]
    split at decided
    · rename_i supported
      simp only [map_eq_pure_bind, bind_ok, pure_ok] at decided
      obtain ⟨previous, read, rfl⟩ := decided
      obtain ⟨_, rfl, _⟩ := readSchedule_some read
      simp [supported]
    · rename_i unsupported
      rw [← Except.ok.inj decided]
      simp [unsupported]

theorem projects_again {decision : Bool}
    (decided : service.projects constraints current replacement (some found) = .ok decision)
    (readable : decision = true → ∃ schedule, service.readSchedule (some stored) =
      .ok (some schedule)) :
    service.projects constraints current replacement (some stored) = .ok decision := by
  have shape := projects_of_some decided
  unfold InstanceConfigurationService.projects
  cases input : current.scheduledInput.isSome || replacement.scheduledInput.isSome with
  | true =>
      rw [input] at shape
      simpa using shape.symm
  | false =>
      rw [input, Bool.false_or] at shape
      by_cases supported : TriggerKind.schedule ∈ constraints.supportedTriggerKinds
      · obtain ⟨schedule, read⟩ := readable (by simp [shape, supported])
        simp [supported, read, shape]
      · simp [supported, shape]

theorem Sound.replaced_row (sound : run.Sound service) (sees : run.Sees sight)
    (present : run.store.schedule = some stored)
    (projected : service.projection constraints current replacement now sight = .ok synchronization)
    (wrote : service.writeSchedule sight.selected run.store.schedule synchronization =
      .ok written) :
    (synchronization = .nothing ∧ written = none ∧
        service.projects constraints current replacement sight.probed = .ok false) ∨
      ∃ next row, stored.toDomain service.support.toZoneSupport service.scheduleDigests =
        .ok stored.schedule ∧
        sight.synchronized = some stored ∧ sight.selected = some stored ∧ written = some row ∧
        replacement.nextSelection service.support.toZoneSupport service.recurrence stored.schedule
          now = .ok next ∧
        row.schedule = stored.schedule.configured (replacement.projected stored.schedule next) := by
  obtain ⟨decided, rfl⟩ | ⟨_, previous, read, synchronized⟩ := projection_ok.mp projected
  · exact .inl ⟨rfl, (Except.ok.inj wrote).symm, decided⟩
  · refine .inr ?_
    have there := sound.found_present sees sight.synchronized (by simp)
    rw [present, Option.isSome_some, Option.isSome_iff_exists] at there
    obtain ⟨found, same⟩ := there
    rw [same] at read
    obtain ⟨schedule, rfl, hydrated⟩ := readSchedule_some read
    obtain ⟨next, selected, _, rfl⟩ := synchronize_some synchronized
    simp only [InstanceConfigurationService.writeSchedule, bind_ok, pure_ok,
      requireSome_ok] at wrote
    obtain ⟨_, swapped, row, rfl, rfl⟩ := wrote
    obtain ⟨chosen, held, chosenSame, heldSame, chosenRead, version, _, _, shape⟩ :=
      compareAndSwapConfiguration_some swapped
    obtain rfl := Option.mem_unique present heldSame
    -- Both reads found the version that the swap found.
    obtain rfl := ScheduleRecord.toDomain_ok hydrated
    have chosenShape := ScheduleRecord.toDomain_ok chosenRead
    obtain rfl := sound.found_row sees found (by simp [same]) present version.symm
    obtain rfl := sound.found_row sees chosen (by simp [chosenSame]) present (by rw [← chosenShape])
    exact ⟨next, row, hydrated, same, chosenSame, rfl, selected, by rw [shape]⟩

theorem Sound.sees_stored (sound : run.Sound service) : run.Sees run.store.sight where
  record := ⟨run.store, sound.newest, rfl⟩
  triggers := ⟨run.store, sound.newest, rfl⟩
  schedules found member := by
    simp only [ConfigurationStore.sight, List.mem_cons, List.not_mem_nil, or_false,
      or_self] at member
    exact ⟨run.store, sound.newest, rfl, member⟩

/-- What an accepted update wrote is what it writes alone at the instant of its commit. -/
theorem Sound.alone (sound : run.Sound service) (sees : run.Sees sight)
    (updated : service.update principal command now sight run.store =
      .ok (after, ⟨replacement, true⟩)) :
    service.update principal command now run.store.sight run.store =
      .ok (after, ⟨replacement, true⟩) := by
  obtain ⟨constraints, current, record, accepts, read, prepared, swapped, changed⟩ :=
    InstanceConfigurationService.update_changed.mp updated
  obtain ⟨_, rfl⟩ := sound.read_current sees read (compareAndSwap_some swapped).1
  have named : run.store.record.configuration.instanceId = command.instanceId := by
    obtain ⟨named, built⟩ := InstanceConfigurationService.read_ok read
    rw [← named, InstanceConfiguration.build_shape built]
  refine InstanceConfigurationService.update_changed.mpr ⟨constraints, _, record, accepts,
    InstanceConfigurationService.read_self named sound.built sound.intact sound.triggers,
      prepared, swapped, ?_⟩
  rw [InstanceConfigurationService.changed_ok] at changed ⊢
  obtain ⟨synchronization, written, event, projected, wrote, made, rfl⟩ := changed
  suffices alone : service.projection constraints run.store.record.configuration replacement now
    run.store.sight =
      .ok synchronization ∧
      service.writeSchedule run.store.schedule run.store.schedule synchronization = .ok written from
    ⟨synchronization, written, event, alone.1, alone.2, made, rfl⟩
  cases present : run.store.schedule with
  | none =>
      have absent : ∀ found ∈ [sight.probed, sight.synchronized, sight.selected], found = none := by
        intro found member
        have there := sound.found_present sees found member
        rwa [present, Option.isSome_none, Option.isSome_eq_false_iff,
          Option.isNone_iff_eq_none] at there
      have selected := absent sight.selected (by simp)
      rw [present, selected] at wrote
      rw [projection_ok, absent sight.probed (by simp),
        absent sight.synchronized (by simp)] at projected
      rw [projection_ok]
      simp only [ConfigurationStore.sight, present]
      exact ⟨projected, wrote⟩
  | some stored =>
      have there := sound.found_present sees sight.probed (by simp)
      rw [present, Option.isSome_some, Option.isSome_iff_exists] at there
      obtain ⟨found, probed⟩ := there
      obtain ⟨rfl, rfl, decided⟩ | ⟨_, row, hydrated, synchronized, selected, rfl, _⟩ :=
        sound.replaced_row sees present projected wrote
      · rw [probed] at decided
        refine ⟨projection_ok.mpr (.inl ⟨?_, rfl⟩), rfl⟩
        simp only [ConfigurationStore.sight, present]
        exact projects_again decided nofun
      · rw [selected, present] at wrote
        refine ⟨?_, wrote⟩
        rw [projection_ok, probed, synchronized] at projected
        rw [projection_ok]
        simp only [ConfigurationStore.sight, present]
        obtain ⟨_, rfl⟩ | ⟨decided, written⟩ := projected
        · cases wrote
        · have readable : service.readSchedule (some stored) = .ok (some stored.schedule) := by
            simp only [InstanceConfigurationService.readSchedule, hydrated]
            rfl
          exact .inr ⟨projects_again decided fun _ => ⟨_, readable⟩, written⟩

end ConfigurationRun

/-- The accepted commands lead from the first configuration to the stored one, each
expecting the next revision and leaving one audit event; the trigger rows repeat
the stored configuration.  An accepted change is one that the update makes alone at
its commit, and every other update leaves the rows as they were. -/
theorem configurationUpdates_linearizable (service : InstanceConfigurationService)
    {run : ConfigurationRun} (reached : (configurationMachine service).Reachable run) :
    run.accepted.foldlM service.acceptedChange run.origin = .ok run.store.record.configuration ∧
      run.accepted.map (·.expectedRevision) =
        List.range' run.origin.configurationRevision run.accepted.length ∧
      run.store.revision = run.origin.configurationRevision + run.accepted.length ∧
      (run.store.audits.map fun audit => (audit.previousRevision, audit.newRevision)) =
        (run.accepted.map fun command => (command.expectedRevision, command.expectedRevision + 1)) ∧
      run.store.triggers = triggerRows service.digests run.store.record.configuration ∧
      ∀ principal command now sight after, run.Sees sight →
        (configurationMachine service).step run (.update principal command now sight) after →
        (∀ store configuration,
          service.update principal command now sight run.store =
            .ok (store, ⟨configuration, true⟩) →
          after.store = store ∧ run.store.revision = command.expectedRevision ∧
            store.revision = command.expectedRevision + 1 ∧
            store.record.configuration = configuration ∧
            service.update principal command now run.store.sight run.store =
              .ok (store, ⟨configuration, true⟩)) ∧
        ((∀ store configuration,
          service.update principal command now sight run.store ≠
            .ok (store, ⟨configuration, true⟩)) →
          after = run) := by
  have sound := ConfigurationRun.sound_of_reachable reached
  refine ⟨sound.folded, sound.numbered, sound.revision, sound.audited, sound.triggers, ?_⟩
  rintro principal command now sight after sees ⟨_, rfl⟩
  constructor
  · intro store configuration updated
    have accepted := sound.accepted sees updated
    have revision : store.revision = command.expectedRevision + 1 := by
      rw [ConfigurationStore.revision, accepted.record, accepted.revision]
    exact ⟨by simp only [ConfigurationRun.after, updated, ConfigurationRun.write],
      accepted.expected, revision, by rw [accepted.record], sound.alone sees updated⟩
  · intro unchanged
    obtain ⟨_, _, _, _, store, configuration, same, updated, _⟩ | ⟨_, written, _⟩ | same :=
      ConfigurationRun.after_cases service run (.update principal command now sight)
    · cases same
      exact absurd updated (unchanged store configuration)
    · cases written
    · exact same

namespace RenamedExample

open TakeoverExample

theorem unchanged_twice (text : String) : id (id text) = id text := rfl

def service : InstanceConfigurationService where
  support := { zones with nfc := id, lower := id, nfc_idempotent := unchanged_twice }
  constraints instanceId := some {
    instanceId
    templateId := "template.writer"
    supportedTriggerKinds := [.manual, .schedule]
    allowedConnectorFamilies := []
    inputMaxBytes := 4096
    inputMaxFieldBytes := 1024 }
  registeredBindingIds _ := []
  recurrence := { nextOccurrenceAfter := fun _ _ instant => .ok ⟨instant + 60, none⟩ }
  key := { version := "key.first", bindingDigest := fun _ => "" }
  workflows := none
  digests := {
    integrity := fun configuration => toString configuration.configurationRevision
    configuredScheduleId := fun instanceId => "schedule." ++ instanceId
    triggerId := fun instanceId kind => "trigger." ++ instanceId ++ kind.value }
  scheduleDigests := digests

def configuration : InstanceConfiguration where
  instanceId := "instance.writer"
  enabled := true
  variantLabel := none
  triggerBindings := []
  connectorBindings := []
  schedule := none
  configurationRevision := 1

def inserted : ConfigurationRun := .create service.digests configuration ⟨configuration, "1"⟩

def administrator : AuthenticatedPrincipal := ⟨"user.owner", .human, ["local_admin"]⟩

def rename : UpdateInstanceConfigurationCommand :=
  ⟨"instance.writer", 1, { variantLabel := .of (some "drafts") }, "correlation.first"⟩

def disable : UpdateInstanceConfigurationCommand :=
  ⟨"instance.writer", 2, { enabled := .of false }, "correlation.second"⟩

def renamed : ConfigurationRun :=
  inserted.after service (.update administrator rename 100 inserted.store.sight)

def disabled : ConfigurationRun :=
  renamed.after service (.update administrator disable 200 renamed.store.sight)

theorem inserted_initial : (configurationMachine service).initial inserted :=
  ⟨configuration, ⟨configuration, "1"⟩, rfl, rfl, rfl⟩

theorem disabled_reachable : (configurationMachine service).Reachable disabled := by
  have start : (configurationMachine service).Reachable inserted := .start inserted_initial
  have first : (configurationMachine service).Reachable renamed :=
    Machine.Reachable.next (.update administrator rename 100 inserted.store.sight) start
      ⟨(ConfigurationRun.sound_of_reachable start).sees_stored, rfl⟩
  exact Machine.Reachable.next (.update administrator disable 200 renamed.store.sight) first
    ⟨(ConfigurationRun.sound_of_reachable first).sees_stored, rfl⟩

end RenamedExample

open RenamedExample in
theorem configurationUpdates_linearizable_disabled :
    disabled.store.record.configuration = { configuration with
      enabled := false, variantLabel := some "drafts", configurationRevision := 3 } ∧
      disabled.accepted.map (·.expectedRevision) = [1, 2] ∧
      disabled.store.triggers = triggerRows service.digests
          disabled.store.record.configuration := by
  obtain ⟨_, _, _, _, triggers, _⟩ := configurationUpdates_linearizable service disabled_reachable
  exact ⟨by decide +kernel, by decide +kernel, triggers⟩

end MarketingAgents
