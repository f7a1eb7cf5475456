import MarketingAgents.Services.ConfigurationUpdates

namespace MarketingAgents

open Library

/-! # Configured schedules follow their configuration

The schedule row of an instance repeats the stored configuration in every state
between updates, claims and advances, and an update that turns it on or changes
its times selects its next run anew.
-/

/-- A schedule row that repeats its configuration. -/
structure Schedule.Follows (schedule : Schedule)
    (configuration : InstanceConfiguration) : Prop where
  enabled : schedule.enabled = true ↔ configuration.enabled = true ∧
    configuration.schedule.isSome = true ∧
    ∃ snapshot, configuration.scheduledInput = some snapshot ∧ snapshot.authority.isSome = true
  parameters : ∀ parameters, configuration.schedule = some parameters →
    schedule.cron = parameters.cron ∧ schedule.timezone = parameters.timezone ∧
      schedule.misfirePolicy = parameters.misfirePolicy ∧
      schedule.misfireGraceSeconds = parameters.misfireGraceSeconds
  workflow : ∀ snapshot authority, configuration.scheduledInput = some snapshot →
    snapshot.authority = some authority → schedule.workflowId = authority.workflowId
  revision : schedule.configurationRevision = some configuration.configurationRevision

/-- A row that was not there before, was disabled, or had another cron or timezone. -/
def Schedule.Renews (schedule : Schedule) (before : Option ScheduleRecord) : Prop :=
  ∀ previous, before = some previous →
    (previous.schedule.enabled = false ∧ schedule.enabled = true) ∨
    schedule.cron ≠ previous.schedule.cron ∨ schedule.timezone ≠ previous.schedule.timezone

/-- The next run was selected for the cron and the timezone of the row, after the
update and after the last scheduled instant. -/
structure Schedule.SelectedAfter (schedule : Schedule) (zones : ZoneSupport)
    (recurrence : RecurrenceCalculator) (now : Time) : Prop where
  later : now < schedule.nextRunAtUtc
  laterThanLast : ∀ last, schedule.lastScheduledAtUtc = some last → last < schedule.nextRunAtUtc
  selected : ∃ boundary result, now ≤ boundary ∧
    (∀ last, schedule.lastScheduledAtUtc = some last → last ≤ boundary) ∧
    calculateNext zones recurrence schedule.cron schedule.timezone boundary = .ok result ∧
    schedule.nextRunAtUtc = result.scheduledForUtc ∧ schedule.nextRecurrence = some result

section

variable {zones : ZoneSupport} {recurrence : RecurrenceCalculator}
  {configuration : InstanceConfiguration} {previous created : Schedule} {now : Time}

theorem calculateNext_later {boundary : Time}
    (selected : calculateNext zones recurrence cron timezone boundary = .ok result) :
    boundary < result.scheduledForUtc := by
  simp only [calculateNext, bind_ok, pure_ok, require_ok] at selected
  obtain ⟨_, _, _, later, rfl⟩ := selected
  exact later

theorem InstanceConfiguration.schedulable_iff : configuration.schedulable = true ↔
    configuration.enabled = true ∧ configuration.schedule.isSome = true ∧
      ∃ snapshot, configuration.scheduledInput = some snapshot ∧
        snapshot.authority.isSome = true := by
  rw [schedulable, authority?]
  cases configuration.scheduledInput <;> simp [and_assoc]

theorem InstanceConfiguration.projected_follows (next : Time × Option RecurrenceResult) :
    (configuration.projected previous next).Follows configuration where
  enabled := configuration.schedulable_iff
  parameters parameters configured := by simp [projected, configured]
  workflow snapshot authority input sealing := by simp [projected, authority?, input, sealing]
  revision := rfl

theorem InstanceConfiguration.projected_renewed
    (chosen : configuration.nextSelection zones recurrence previous now = .ok next)
    (renews : (previous.enabled = false ∧ (configuration.projected previous next).enabled = true) ∨
      (configuration.projected previous next).cron ≠ previous.cron ∨
      (configuration.projected previous next).timezone ≠ previous.timezone) :
    (configuration.projected previous next).SelectedAfter zones recurrence now := by
  unfold nextSelection at chosen
  split at chosen
  · rename_i parameters configured
    have reselects : configuration.reselects previous parameters = true := by
      simp only [projected, configured, Option.map_some, Option.getD_some] at renews
      simp only [InstanceConfiguration.reselects, Bool.or_eq_true, Bool.and_eq_true,
        Bool.not_eq_true', decide_eq_true_eq]
      tauto
    rw [if_pos reselects] at chosen
    simp only [bind_ok, pure_ok] at chosen
    obtain ⟨result, selected, rfl⟩ := chosen
    have later := calculateNext_later selected
    have first : now ≤ max now (previous.lastScheduledAtUtc.getD now) := Nat.le_max_left _ _
    have last : ∀ last, previous.lastScheduledAtUtc = some last →
        last ≤ max now (previous.lastScheduledAtUtc.getD now) := by
      rintro last present
      rw [present]
      exact Nat.le_max_right _ _
    exact {
      later := Nat.lt_of_le_of_lt first later
      laterThanLast := fun instant present => Nat.lt_of_le_of_lt (last instant present) later
      selected := ⟨_, result, first, last, by simpa [projected, configured] using selected, rfl,
        rfl⟩ }
  · rename_i unconfigured
    simp [projected, unconfigured, schedulable] at renews

theorem InstanceConfiguration.synchronize_create
    (synchronized : configuration.synchronize zones recurrence identities none now =
      .ok (.create created)) :
    created.Follows configuration ∧ created.SelectedAfter zones recurrence now ∧
      configuration.scheduledInput.isSome = true := by
  simp only [synchronize] at synchronized
  split at synchronized
  · rename_i parameters authority configured sealing
    split at synchronized
    · rename_i runs
      simp only [createSchedule, bind_ok, pure_ok, Schedule.replace_ok,
        ScheduleSynchronization.create.injEq]
        at synchronized
      obtain ⟨_, ⟨result, selected, _, rfl⟩, _, ⟨_, rfl⟩, rfl⟩ := synchronized
      have later := calculateNext_later selected
      obtain ⟨enabled, scheduled, snapshot, input, present⟩ := configuration.schedulable_iff.mp runs
      refine ⟨?_, ?_, by rw [input]; rfl⟩
      · exact {
          enabled := ⟨fun _ => ⟨enabled, scheduled, snapshot, input, present⟩, fun _ => rfl⟩
          parameters := fun other same => by
            rw [configured] at same
            obtain rfl := Option.some.inj same
            exact ⟨rfl, rfl, rfl, rfl⟩
          workflow := fun other sealed same granted => by
            rw [authority?, same, Option.bind_some, granted] at sealing
            rw [Option.some.inj sealing]
          revision := rfl }
      · exact {
          later
          laterThanLast := by simp
          selected := ⟨now, result, Nat.le_refl _, by simp, selected, rfl, rfl⟩ }
    · cases synchronized
  · cases synchronized

theorem InstanceConfiguration.synchronize_none
    (synchronized : configuration.synchronize zones recurrence identities none now =
      .ok synchronization) :
    synchronization = .nothing ∨ ∃ created, synchronization = .create created := by
  simp only [synchronize] at synchronized
  split at synchronized
  · split at synchronized
    · simp only [bind_ok, pure_ok] at synchronized
      obtain ⟨_, _, created, _, rfl⟩ := synchronized
      exact .inr ⟨created, rfl⟩
    · exact .inl (Except.ok.inj synchronized).symm
  · exact .inl (Except.ok.inj synchronized).symm

theorem Schedule.Follows.of_settings {before after : Schedule}
    (follows : before.Follows configuration)
    (same : after.settings = before.settings) : after.Follows configuration := by
  simp only [settings, Schedule.mk.injEq, true_and, and_true] at same
  obtain ⟨_, _, _, workflow, cron, timezone, policy, grace, enabled, _, revision⟩ := same
  exact {
    enabled := enabled ▸ follows.enabled
    parameters := by
      rw [cron, timezone, policy, grace]
      exact follows.parameters
    workflow := workflow ▸ follows.workflow
    revision := revision ▸ follows.revision }

end

namespace ConfigurationRun

variable {service : InstanceConfigurationService} {run : ConfigurationRun}
  {row stored : ScheduleRecord}
  {principal : AuthenticatedPrincipal} {command : UpdateInstanceConfigurationCommand} {now : Time}
  {sight : UpdateSight} {after : ConfigurationStore} {replacement : InstanceConfiguration}

/-- The schedule row repeats the configuration, and the template supports schedules
as soon as there is a row. -/
structure Projected (service : InstanceConfigurationService) (run : ConfigurationRun) : Prop where
  follows : ∀ row, run.store.schedule = some row →
    row.schedule.Follows run.store.record.configuration
  supported : ∀ row, run.store.schedule = some row →
    ∃ constraints, service.constraintsFor run.store.record.configuration.instanceId =
      .ok constraints ∧
      .schedule ∈ constraints.supportedTriggerKinds

theorem supported_of_input
    (prepared : service.prepare command constraints current now = .ok (some replacement))
    (input : replacement.scheduledInput.isSome = true) :
      .schedule ∈ constraints.supportedTriggerKinds := by
  obtain ⟨_, patched, bound, _, checked, sealing, revised⟩ :=
    InstanceConfigurationService.prepare_some prepared
  rw [InstanceConfiguration.build_shape revised] at input
  obtain ⟨snapshot, present⟩ : ∃ snapshot, patched.scheduledInput = some snapshot := by
    cases present : patched.scheduledInput with
    | some snapshot => exact ⟨snapshot, rfl⟩
    | none =>
        simp only [InstanceConfigurationService.bindCandidate, present, Except.ok.injEq] at sealing
        rw [← sealing, present] at input
        cases input
  simp only [InstanceConfigurationService.requireConfiguration,
    InstanceConfigurationService.orConfigurationError, if_true, bind_ok, orTampered_ok] at checked
  obtain ⟨_, _, _, _, _, structured, _⟩ := checked
  simp only [InstanceConfigurationService.requireBindings, bind_ok,
    requireOptional_ok] at structured
  obtain ⟨_, _, inputs⟩ := structured
  have accepted := inputs snapshot present
  simp only [InstanceConfigurationService.requireInput, bind_ok, require_ok] at accepted
  exact accepted.choose_spec.1

/-- What an accepted change leaves of the schedule row. -/
theorem Projected.changed (projected : run.Projected service) (sound : run.Sound service)
    (sees : run.Sees sight) (updated : service.update principal command now sight run.store =
      .ok (after, ⟨replacement, true⟩))
    (present : after.schedule = some row) :
    row.schedule.Follows replacement ∧
      (row.schedule.Renews run.store.schedule →
        row.schedule.SelectedAfter service.support.toZoneSupport service.recurrence now) ∧
      ∃ constraints, service.constraintsFor replacement.instanceId = .ok constraints ∧
        .schedule ∈ constraints.supportedTriggerKinds := by
  obtain ⟨constraints, current, record, accepts, read, prepared, swapped, changed⟩ :=
    InstanceConfigurationService.update_changed.mp updated
  obtain ⟨stands, instanceId, _, _⟩ := compareAndSwap_some swapped
  obtain ⟨_, rfl⟩ := sound.read_current sees read stands
  obtain ⟨synchronization, written, event, projects, wrote, _, rfl⟩ :=
    InstanceConfigurationService.changed_ok.mp changed
  have named : run.store.record.configuration.instanceId = command.instanceId := by
    obtain ⟨named, built⟩ := InstanceConfigurationService.read_ok read
    rw [← named, InstanceConfiguration.build_shape built]
  have constrained : service.constraintsFor replacement.instanceId = .ok constraints := by
    rw [instanceId, named]
    exact InstanceConfigurationService.accept_ok accepts
  dsimp only at present
  cases before : run.store.schedule with
  | some stored =>
      obtain ⟨others, found, supported⟩ := projected.supported stored before
      obtain rfl : others = constraints := by
        rw [← instanceId, constrained] at found
        exact (Except.ok.inj found).symm
      obtain ⟨_, _, decided⟩ | ⟨next, fresh, _, _, _, rfl, chosen, shape⟩ :=
        sound.replaced_row sees before projects wrote
      · -- A row that is there is always projected.
        have there := sound.found_present sees sight.probed (by simp)
        rw [before, Option.isSome_some, Option.isSome_iff_exists] at there
        obtain ⟨probed, same⟩ := there
        rw [same] at decided
        have skipped := projects_of_some decided
        rw [decide_eq_true supported, Bool.or_true] at skipped
        cases skipped
      · obtain rfl := Option.some.inj present
        -- The row takes every projected column and keeps its last scheduled instant.
        have shape : fresh.schedule = replacement.projected stored.schedule next := shape
        rw [shape]
        refine ⟨replacement.projected_follows next, fun renews => ?_, _, constrained, supported⟩
        exact replacement.projected_renewed chosen (renews stored rfl)
  | none =>
      rw [before, Option.or_none] at present
      subst present
      obtain ⟨_, rfl⟩ | ⟨_, previous, found, synchronized⟩ := projection_ok.mp projects
      · cases wrote
      · have there := sound.found_present sees sight.synchronized (by simp)
        rw [before, Option.isSome_none, Option.isSome_eq_false_iff,
          Option.isNone_iff_eq_none] at there
        rw [there] at found
        obtain rfl := Except.ok.inj found
        obtain rfl | ⟨created, rfl⟩ := InstanceConfiguration.synchronize_none synchronized
        · cases wrote
        · obtain ⟨follows, selected, input⟩ := InstanceConfiguration.synchronize_create synchronized
          simp only [InstanceConfigurationService.writeSchedule, addScheduleOrGet, before,
            ScheduleRecord.create, bind_ok, pure_ok, require_ok, Option.some.injEq] at wrote
          obtain ⟨_, ⟨_, ⟨_, _, rfl⟩, rfl⟩, _, _, rfl⟩ := wrote
          exact ⟨follows, fun _ => selected, constraints, constrained,
            supported_of_input prepared input⟩

theorem Projected.step {step : ConfigurationStep} (projected : run.Projected service)
    (sound : run.Sound service)
    (seen : run.seen step) : (run.after service step).Projected service := by
  obtain ⟨principal, command, now, sight, store, configuration, rfl, updated, same⟩ |
      ⟨row, written, same⟩ | same :=
    after_cases service run step
  · have accepted := sound.accepted seen updated
    rw [same]
    constructor
    · intro row present
      simp only [ConfigurationRun.write, accepted.record]
      exact (projected.changed sound seen updated present).1
    · intro row present
      simp only [ConfigurationRun.write, accepted.record]
      exact (projected.changed sound seen updated present).2.2
  · obtain ⟨stored, before, _, settings⟩ := schedulerRow_some written
    rw [same]
    constructor
    · intro other present
      obtain rfl := Option.some.inj present
      exact (projected.follows stored before).of_settings settings
    · intro other _
      exact projected.supported stored before
  · exact same.symm ▸ projected

theorem projected_of_reachable (reached : (configurationMachine service).Reachable run) :
    run.Projected service := by
  have both : run.Sound service ∧ run.Projected service := by
    refine Machine.Reachable.invariant (fun run => run.Sound service ∧
      run.Projected service) reached ?_ ?_
    · rintro run ⟨configuration, record, built, written, rfl⟩
      have unscheduled (row : ScheduleRecord) : (none : Option ScheduleRecord) ≠ some row := by simp
      exact ⟨sound_create built written, fun row stored => absurd stored (unscheduled row),
        fun row stored => absurd stored (unscheduled row)⟩
    · rintro run step next ⟨sound, projected⟩ ⟨seen, rfl⟩
      exact ⟨sound.step seen, projected.step sound seen⟩
  exact both.2

end ConfigurationRun

/-- After every accepted update the schedule row repeats the configuration, as it does
in every state between claims and advances; a row that the update enabled, or gave
another cron or timezone, was selected anew. -/
theorem configuredSchedules_follow (service : InstanceConfigurationService) {run : ConfigurationRun}
    (reached : (configurationMachine service).Reachable run) :
    (∀ row, run.store.schedule = some row → row.schedule.Follows run.store.record.configuration) ∧
      ∀ principal command now sight store configuration, run.Sees sight →
        service.update principal command now sight run.store = .ok (store, ⟨configuration, true⟩) →
        ∀ row, store.schedule = some row →
          row.schedule.Follows configuration ∧
            (row.schedule.Renews run.store.schedule →
              row.schedule.SelectedAfter service.support.toZoneSupport service.recurrence now) := by
  have sound := ConfigurationRun.sound_of_reachable reached
  have projected := ConfigurationRun.projected_of_reachable reached
  refine ⟨projected.follows, ?_⟩
  intro principal command now sight store configuration sees updated row present
  obtain ⟨follows, selected, _⟩ := projected.changed sound sees updated present
  exact ⟨follows, selected⟩

namespace RescheduledExample

open RenamedExample (configuration inserted administrator)

def zeros : String := String.ofList (List.replicate 64 '0')

def workflow : ExecutableWorkflowDefinition where
  id := "workflow.digest"
  templateId := "template.writer"
  targetInstanceIds := ["instance.writer"]
  eligibleTriggerKinds := [.schedule]
  allowedModes := [.dryRun]
  inputSchemaId := "schema.digest"
  inputSchemaHash := "schema-sha256-v1:" ++ zeros
  definitionHash := zeros
  acceptsInput _ := true

def service : InstanceConfigurationService :=
  { RenamedExample.service with
    key := { version := "key.first", bindingDigest := fun _ => zeros }
    workflows := some ⟨"catalog.first", [workflow]⟩ }

def schedule (cron : String) : InstanceSchedule := ⟨cron, "UTC", .runOnce, 60⟩

def trigger (cron : String) : InstanceTriggerBinding where
  kind := .schedule
  cron := some cron
  timezone := some "UTC"
  misfirePolicy := some .runOnce
  misfireGraceSeconds := some 60

def configure : UpdateInstanceConfigurationCommand where
  instanceId := "instance.writer"
  expectedRevision := 1
  patch := {
    triggerBindings := .of [trigger "0 * * * *"]
    schedule := .of (some (schedule "0 * * * *"))
    scheduledInput := .of (some ⟨.object [], .dryRun, none⟩) }
  correlationId := "correlation.first"

def reschedule : UpdateInstanceConfigurationCommand where
  instanceId := "instance.writer"
  expectedRevision := 2
  patch :=
    { triggerBindings := .of [trigger "5 * * * *"], schedule := .of (some (schedule "5 * * * *")) }
  correlationId := "correlation.second"

def claim : ScheduleClaimRequest :=
  ⟨"schedule.instance.writer", 1, 160, "scheduler.first", 170, 300⟩

def configured : ConfigurationRun :=
  inserted.after service (.update administrator configure 100 inserted.store.sight)

/-- The row that the first update created. -/
def created : ScheduleRecord :=
  configured.store.schedule.getD ⟨TakeoverExample.schedule, none, ""⟩

def claimed : ConfigurationRun := configured.after service (.tryClaim created claim)

theorem created_stored : configured.store.schedule = some created := by decide +kernel

theorem claimed_reachable : (configurationMachine service).Reachable claimed := by
  have start : (configurationMachine service).Reachable inserted :=
    .start RenamedExample.inserted_initial
  have first : (configurationMachine service).Reachable configured :=
    Machine.Reachable.next (.update administrator configure 100 inserted.store.sight) start
      ⟨(ConfigurationRun.sound_of_reachable start).sees_stored, rfl⟩
  exact Machine.Reachable.next (.tryClaim created claim) first
    ⟨⟨configured.store, (ConfigurationRun.sound_of_reachable first).newest, created_stored⟩, rfl⟩

/-- What an update answers, with the times of the row that it leaves. -/
def answered (outcome : Except Rejection (ConfigurationStore × InstanceConfigurationUpdateResult)) :
    Bool × Option (String × Time) :=
  match outcome with
  | .ok (store, result) =>
      (result.changed, store.schedule.map fun row => (row.schedule.cron, row.schedule.nextRunAtUtc))
  | .error _ => (false, none)

theorem answered_some
    {cron : String} {next : Time} (changed : answered outcome = (true, some (cron, next))) :
    ∃ store configuration row, outcome = .ok (store, ⟨configuration, true⟩) ∧
    store.schedule = some row ∧
      row.schedule.cron = cron ∧ row.schedule.nextRunAtUtc = next := by
  cases outcome with
  | error reason => cases changed
  | ok answer =>
      obtain ⟨store, configuration, accepted⟩ := answer
      simp only [answered, Prod.mk.injEq, Option.map_eq_some_iff] at changed
      obtain ⟨rfl, row, present, cron, next⟩ := changed
      exact ⟨store, configuration, row, rfl, present, cron, next⟩

/-- The edit of the claimed schedule. -/
def edited : Except Rejection (ConfigurationStore × InstanceConfigurationUpdateResult) :=
  service.update administrator reschedule 200 claimed.store.sight claimed.store

theorem edited_changed : answered edited = (true, some ("5 * * * *", 260)) := by decide +kernel

end RescheduledExample

open RescheduledExample in
theorem configuredSchedules_follow_edited :
    ∃ store configuration row,
      service.update RenamedExample.administrator reschedule 200 claimed.store.sight claimed.store =
        .ok (store, ⟨configuration, true⟩) ∧
      store.schedule = some row ∧ row.schedule.cron = "5 * * * *" ∧
      row.schedule.nextRunAtUtc = 260 ∧
      row.schedule.Follows configuration := by
  obtain ⟨store, configuration, row, updated, present, cron, next⟩ := answered_some edited_changed
  obtain ⟨_, follows⟩ := configuredSchedules_follow service claimed_reachable
  have seen := (ConfigurationRun.sound_of_reachable claimed_reachable).sees_stored
  exact ⟨store, configuration, row, updated, present, cron, next,
    (follows _ _ _ _ _ _ seen updated row present).1⟩

end MarketingAgents
