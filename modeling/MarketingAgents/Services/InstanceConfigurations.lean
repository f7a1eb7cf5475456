import MarketingAgents.Persistence.ConfigurationRepository
import MarketingAgents.Services.ScheduleConfiguration

namespace MarketingAgents

/-! # Configuration updates

One update reads the configuration, patches and checks it, swaps its row,
projects its schedule and records the change, all in one transaction.
-/

inductive PrincipalKind where
  | human
  | service
deriving DecidableEq

structure AuthenticatedPrincipal where
  actorId : String
  kind : PrincipalKind
  roles : List String

structure UpdateInstanceConfigurationCommand where
  instanceId : String
  expectedRevision : Nat
  patch : InstanceConfigurationPatch
  correlationId : String

/-- The event of one accepted change. -/
structure ConfigurationAudit where
  instanceId : String
  previousConfiguration : InstanceConfiguration
  newConfiguration : InstanceConfiguration
  previousRevision : Nat
  newRevision : Nat
  actorId : String
  correlationId : String
  occurredAt : Time
deriving DecidableEq

structure InstanceConfigurationUpdateResult where
  configuration : InstanceConfiguration
  changed : Bool
deriving DecidableEq

structure InstanceConfigurationService where
  support : ConfigurationSupport
  constraints : String → Option InstanceConfigurationConstraints
  registeredBindingIds : String → List String
  recurrence : RecurrenceCalculator
  key : DigestKey
  workflows : Option ExecutableWorkflowRegistry
  digests : ConfigurationDigests
  scheduleDigests : ScheduleDigests

/-- The rows of one instance. -/
structure ConfigurationStore where
  record : AgentInstanceConfigurationRecord
  triggers : List TriggerDefinitionRecord
  schedule : Option ScheduleRecord
  audits : List ConfigurationAudit
deriving DecidableEq

/-- What the statements of one update find: the configuration row, its trigger
rows and, once that row is swapped, the schedule row each time it is read. -/
structure UpdateSight where
  record : AgentInstanceConfigurationRecord
  triggers : List TriggerDefinitionRecord
  probed : Option ScheduleRecord
  synchronized : Option ScheduleRecord
  selected : Option ScheduleRecord

/-- What they find when no other transaction comes between them. -/
def ConfigurationStore.sight (store : ConfigurationStore) : UpdateSight where
  record := store.record
  triggers := store.triggers
  probed := store.schedule
  synchronized := store.schedule
  selected := store.schedule

def authorizeInstanceConfigurationAdmin (principal : AuthenticatedPrincipal) :
    Except Rejection Unit := do
  require (principal.kind = .human) "configuration_human_required"
    "service principals cannot change instance configuration"
  require ("local_admin" ∈ principal.roles) "configuration_admin_role_missing"
    "the authenticated principal lacks the local administrator role"

def configurationUnavailable : Rejection where
  code := "configuration_unavailable"
  message := "instance configuration is unavailable"

/-- Whatever goes wrong within the transaction is unavailability to the caller. -/
def orUnavailable {α : Type} (checked : Except Rejection α) : Except Rejection α :=
  orTampered configurationUnavailable.code configurationUnavailable.message checked

namespace InstanceConfigurationService

variable (service : InstanceConfigurationService)

def constraintsFor (instanceId : String) : Except Rejection InstanceConfigurationConstraints := do
  let constraints ← requireSome (service.constraints instanceId) "instance_not_found"
    "agent instance does not exist"
  orUnavailable (require (constraints.instanceId = instanceId) "ValueError" "instance constraints")
  return constraints

/-- Every registered binding of the allowed families is well named. -/
def requireRegisteredBindings (constraints : InstanceConfigurationConstraints) :
    Except Rejection Unit :=
  orUnavailable (requireEach (fun family => requireEach (fun bindingId => do
      requireId bindingId "registered connector binding ID"
      require (bindingId.toList.length ≤ 120) "ValueError" "registered connector binding ID")
    (service.registeredBindingIds family)) constraints.allowedConnectorFamilies)

def requireInput (configuration : InstanceConfiguration)
    (constraints : InstanceConfigurationConstraints)
    (clientValue : Bool) (snapshot : ScheduledInput) : Except Rejection Unit := do
  require (.schedule ∈ constraints.supportedTriggerKinds) "ValueError"
    "scheduled input is not supported"
  match snapshot.authority with
  | none => require clientValue "ValueError" "scheduled input is not bound"
  | some _ => verifyScheduledInput service.key configuration.instanceId snapshot

/-- What the templates of the instance allow. -/
def requireScope (configuration : InstanceConfiguration)
    (constraints : InstanceConfigurationConstraints) : Except Rejection Unit := do
  require (configuration.instanceId = constraints.instanceId) "ValueError" "configured instance"
  require (∀ binding ∈ configuration.triggerBindings,
    binding.kind ∈ constraints.supportedTriggerKinds) "ValueError" "configured trigger kinds"
  require (∀ entry ∈ configuration.connectorBindings,
    entry.1 ∈ constraints.allowedConnectorFamilies) "ValueError" "configured connector families"

/-- The connectors and the input against what is registered. -/
def requireBindings (configuration : InstanceConfiguration)
    (constraints : InstanceConfigurationConstraints)
    (clientValue : Bool) : Except Rejection Unit := do
  require (∀ entry ∈ configuration.connectorBindings,
      entry.2.bindingId ∈ service.registeredBindingIds entry.1)
    "ValueError" "configured connector bindings"
  requireOptional (service.requireInput configuration constraints clientValue)
    configuration.scheduledInput

/-- The error of a configuration: invalid where the client sent it, else unavailable. -/
def orConfigurationError (clientValue : Bool) (checked : Except Rejection Unit) :
    Except Rejection Unit :=
  if clientValue then orTampered "configuration_invalid" "instance configuration is invalid" checked
  else orUnavailable checked

def requireSchedule (schedule : InstanceSchedule) (clientValue : Bool) (now : Time) :
    Except Rejection Unit := do
  let next ← match service.recurrence.nextAfter schedule.cron schedule.timezone now with
    | .ok next => .ok next
    | .error _ =>
        if clientValue then
          reject "configuration_schedule_invalid" "instance schedule expression is invalid"
        else .error configurationUnavailable
  orUnavailable (require (now < next) "ValueError" "next configured schedule time")

def requireConfiguration (configuration : InstanceConfiguration)
    (constraints : InstanceConfigurationConstraints)
    (clientValue : Bool) (now : Time) : Except Rejection Unit := do
  orConfigurationError clientValue (requireScope configuration constraints)
  service.requireRegisteredBindings constraints
  orConfigurationError clientValue (service.requireBindings configuration constraints clientValue)
  requireOptional (service.requireSchedule · clientValue now) configuration.schedule

/-- A candidate with its scheduled input bound to the workflow that runs it. -/
def bindCandidate (patch : InstanceConfigurationPatch)
    (constraints : InstanceConfigurationConstraints)
    (candidate : InstanceConfiguration) : Except Rejection InstanceConfiguration :=
  match candidate.scheduledInput, service.workflows with
  | none, _ => .ok candidate
  | some _, none => .error configurationUnavailable
  | some snapshot, some workflows =>
      orTampered "configuration_invalid" "scheduled input is invalid for this workflow" (do
        let bound ← bindScheduledInput service.key snapshot constraints workflows
        require (patch.scheduledInput.provided ∨ snapshot = bound)
          "ValueError" "scheduled workflow changed; resubmit explicit input"
        ({ candidate with scheduledInput := some bound } : InstanceConfiguration).build
          service.support)

/-- A patched configuration, checked and bound. -/
def candidate (patch : InstanceConfigurationPatch) (constraints : InstanceConfigurationConstraints)
    (current : InstanceConfiguration) (now : Time) : Except Rejection InstanceConfiguration := do
  let patched ← orTampered "configuration_invalid" "instance configuration is invalid"
    (patch.apply service.support current)
  service.requireConfiguration patched constraints true now
  service.bindCandidate patch constraints patched

/-- The replacement that a command asks for, or nothing when nothing would change. -/
def prepare (command : UpdateInstanceConfigurationCommand)
    (constraints : InstanceConfigurationConstraints)
    (current : InstanceConfiguration) (now : Time) :
      Except Rejection (Option InstanceConfiguration) := do
  service.requireConfiguration current constraints false now
  require (current.configurationRevision = command.expectedRevision)
    "configuration_revision_conflict" "instance configuration revision changed"
  let candidate ← service.candidate command.patch constraints current now
  if candidate = current then .ok none
  else do
    let replacement ← orUnavailable
      (candidate.withRevision service.support (current.configurationRevision + 1))
    return some replacement

def readSchedule (stored : Option ScheduleRecord) : Except Rejection (Option Schedule) :=
  match stored with
  | none => .ok none
  | some row => some <$> row.toDomain service.support.toZoneSupport service.scheduleDigests

/-- Whether the schedule row is projected: there is an input, or there was one and
its row remains. -/
def projects (constraints : InstanceConfigurationConstraints)
    (current replacement : InstanceConfiguration)
    (probed : Option ScheduleRecord) : Except Rejection Bool :=
  if current.scheduledInput.isSome || replacement.scheduledInput.isSome then .ok true
  else if .schedule ∈ constraints.supportedTriggerKinds then
    (·.isSome) <$> service.readSchedule probed
  else .ok false

/-- What the transaction asks of the schedule row that it found. -/
def projection (constraints : InstanceConfigurationConstraints)
    (current replacement : InstanceConfiguration)
    (now : Time) (sight : UpdateSight) : Except Rejection ScheduleSynchronization := do
  let projects ← service.projects constraints current replacement sight.probed
  if projects then do
    let previous ← service.readSchedule sight.synchronized
    replacement.synchronize service.support.toZoneSupport service.recurrence
      ⟨service.digests.configuredScheduleId, service.digests.triggerId⟩ previous now
  else .ok .nothing

/-- The schedule row after its projection, or nothing when it is left alone. -/
def writeSchedule (selected stored : Option ScheduleRecord) :
    ScheduleSynchronization → Except Rejection (Option ScheduleRecord)
  | .nothing => .ok none
  | .create schedule => do
      let added ← addScheduleOrGet service.support.toZoneSupport service.scheduleDigests
        schedule stored
      require added.2 "ScheduleConfigurationError"
        "schedule synchronization lost its creation fence"
      return some added.1
  | .replace previous replacement => do
      let swapped ← compareAndSwapConfiguration service.support.toZoneSupport
        service.scheduleDigests previous replacement selected stored
      let row ← requireSome swapped "ScheduleConfigurationError"
        "schedule synchronization lost its revision fence"
      return some row

def changedEvent (principal : AuthenticatedPrincipal) (command : UpdateInstanceConfigurationCommand)
    (current replacement : InstanceConfiguration) (now : Time) :
      Except Rejection ConfigurationAudit := do
  require (1 ≤ current.configurationRevision ∧
      replacement.configurationRevision = current.configurationRevision + 1)
    "ValueError" "instance configuration audit revisions must advance by exactly one"
  require (current.composed service.support.toTextSupport ≠
    replacement.composed service.support.toTextSupport)
    "ValueError" "instance configuration audit requires a material change"
  return {
    instanceId := current.instanceId
    previousConfiguration := current.plainMapping
    newConfiguration := replacement.plainMapping
    previousRevision := current.configurationRevision
    newRevision := replacement.configurationRevision
    actorId := principal.actorId
    correlationId := command.correlationId
    occurredAt := now }

/-- The checks of a command that come before its transaction. -/
def accept (principal : AuthenticatedPrincipal) (command : UpdateInstanceConfigurationCommand) :
    Except Rejection InstanceConfigurationConstraints := do
  authorizeInstanceConfigurationAdmin principal
  require (command.patch.isEmpty = false) "configuration_patch_empty"
    "instance configuration patch must contain at least one field"
  service.constraintsFor command.instanceId

/-- Read the configuration row and verify its trigger rows. -/
def read (instanceId : String) (record : AgentInstanceConfigurationRecord)
    (triggers : List TriggerDefinitionRecord) : Except Rejection InstanceConfiguration := do
  require (record.configuration.instanceId = instanceId) "configuration_missing" "configuration row"
  let configuration ← record.toDomain service.support service.digests
  verifyTriggers service.digests configuration triggers
  return configuration

/-- The rows that a change leaves, once the configuration row is swapped. -/
def changed (principal : AuthenticatedPrincipal) (command : UpdateInstanceConfigurationCommand)
    (constraints : InstanceConfigurationConstraints) (sight : UpdateSight)
    (store : ConfigurationStore)
    (current replacement : InstanceConfiguration) (record : AgentInstanceConfigurationRecord)
    (now : Time) : Except Rejection ConfigurationStore := do
  let synchronization ← service.projection constraints current replacement now sight
  let written ← service.writeSchedule sight.selected store.schedule synchronization
  let event ← service.changedEvent principal command current replacement now
  return {
    record
    triggers := triggerRows service.digests replacement
    schedule := written.or store.schedule
    audits := store.audits ++ [event] }

/-- An update that found the given rows and whose writes meet the stored ones. -/
def update (principal : AuthenticatedPrincipal)
    (command : UpdateInstanceConfigurationCommand) (now : Time)
    (sight : UpdateSight) (store : ConfigurationStore) :
    Except Rejection (ConfigurationStore × InstanceConfigurationUpdateResult) := do
  let constraints ← service.accept principal command
  let current ← orUnavailable (service.read command.instanceId sight.record sight.triggers)
  let prepared ← service.prepare command constraints current now
  match prepared with
  | none => return (store, ⟨current, false⟩)
  | some replacement => do
      let swapped ← orUnavailable (compareAndSwap service.digests current replacement store.record)
      let record ← requireSome swapped "configuration_revision_conflict"
        "instance configuration revision changed"
      let after ← orUnavailable
        (service.changed principal command constraints sight store current replacement record now)
      return (after, ⟨replacement, true⟩)

end InstanceConfigurationService

namespace InstanceConfigurationService

variable {service : InstanceConfigurationService} {principal : AuthenticatedPrincipal}
  {command : UpdateInstanceConfigurationCommand} {now : Time} {sight : UpdateSight}
  {store after : ConfigurationStore} {result : InstanceConfigurationUpdateResult}
  {constraints : InstanceConfigurationConstraints} {current replacement : InstanceConfiguration}
  {record : AgentInstanceConfigurationRecord}

theorem accept_ok (accepted : service.accept principal command = .ok constraints) :
    service.constraintsFor command.instanceId = .ok constraints := by
  simp only [accept, bind_ok] at accepted
  obtain ⟨_, _, _, _, found⟩ := accepted
  exact found

theorem read_ok (read : service.read instanceId record triggers = .ok current) :
    record.configuration.instanceId = instanceId ∧
      record.configuration.build service.support = .ok current := by
  simp only [InstanceConfigurationService.read, bind_ok, pure_ok, require_ok] at read
  obtain ⟨_, named, _, hydrated, _, _, rfl⟩ := read
  exact ⟨named, (AgentInstanceConfigurationRecord.toDomain_ok hydrated).2⟩

theorem read_self {instanceId : String} {triggers : List TriggerDefinitionRecord}
    (named : record.configuration.instanceId = instanceId)
    (built : record.configuration.build service.support = .ok record.configuration)
    (intact : record.integrityDigest = service.digests.integrity record.configuration)
    (rows : triggers = triggerRows service.digests record.configuration) :
    service.read instanceId record triggers = .ok record.configuration := by
  have hydrated : record.toDomain service.support service.digests = .ok record.configuration := by
    simp only [AgentInstanceConfigurationRecord.toDomain, bind_ok, require_ok, orTampered_ok]
    exact ⟨(), intact, built⟩
  simp only [InstanceConfigurationService.read, verifyTriggers, bind_ok, pure_ok, require_ok]
  exact ⟨(), named, record.configuration, hydrated, (),
    ⟨rows ▸ List.Subset.refl _, rows ▸ List.Subset.refl _⟩, rfl⟩

theorem prepare_some (prepared : service.prepare command constraints current now =
    .ok (some replacement)) :
    current.configurationRevision = command.expectedRevision ∧
      ∃ patched bound, command.patch.apply service.support current = .ok patched ∧
        service.requireConfiguration patched constraints true now = .ok () ∧
        service.bindCandidate command.patch constraints patched = .ok bound ∧
        bound.withRevision service.support (current.configurationRevision + 1) =
          .ok replacement := by
  simp only [prepare, candidate, orUnavailable, bind_ok, require_ok, orTampered_ok] at prepared
  obtain ⟨_, _, _, expected, bound, ⟨patched, applied, _, checked, sealing⟩, prepared⟩ := prepared
  split at prepared
  · cases prepared
  · simp only [bind_ok, pure_ok, orTampered_ok, Option.some.injEq] at prepared
    obtain ⟨_, advanced, rfl⟩ := prepared
    exact ⟨expected, patched, bound, applied, checked, sealing, advanced⟩

theorem changed_ok :
    service.changed principal command constraints sight store current replacement record now =
      .ok after ↔
      ∃ synchronization written event,
        service.projection constraints current replacement now sight = .ok synchronization ∧
        service.writeSchedule sight.selected store.schedule synchronization = .ok written ∧
        service.changedEvent principal command current replacement now = .ok event ∧
        after = ⟨record, triggerRows service.digests replacement, written.or store.schedule,
          store.audits ++ [event]⟩ := by
  simp only [changed, bind_ok, pure_ok]
  constructor
  · rintro ⟨synchronization, projected, written, wrote, event, made, rfl⟩
    exact ⟨synchronization, written, event, projected, wrote, made, rfl⟩
  · rintro ⟨synchronization, written, event, projected, wrote, made, rfl⟩
    exact ⟨synchronization, projected, written, wrote, event, made, rfl⟩

theorem update_changed :
    service.update principal command now sight store = .ok (after, ⟨replacement, true⟩) ↔
      ∃ constraints current record, service.accept principal command = .ok constraints ∧
        service.read command.instanceId sight.record sight.triggers = .ok current ∧
        service.prepare command constraints current now = .ok (some replacement) ∧
        compareAndSwap service.digests current replacement store.record = .ok (some record) ∧
        service.changed principal command constraints sight store current replacement record now =
          .ok after := by
  simp only [update, orUnavailable, bind_ok, orTampered_ok]
  constructor
  · rintro ⟨constraints, accepted, current, read, prepared, prepares, finished⟩
    cases prepared with
    | none => simp [pure_ok] at finished
    | some prepared =>
        simp only [bind_ok, pure_ok, requireSome_ok, orTampered_ok, Prod.mk.injEq,
          InstanceConfigurationUpdateResult.mk.injEq, and_true] at finished
        obtain ⟨_, swapped, record, rfl, _, changed, rfl, rfl⟩ := finished
        exact ⟨constraints, current, record, accepted, read, prepares, swapped, changed⟩
  · rintro ⟨constraints, current, record, accepted, read, prepares, swapped, changed⟩
    refine ⟨constraints, accepted, current, read, some replacement, prepares, ?_⟩
    simp only [bind_ok, pure_ok, requireSome_ok, orTampered_ok]
    exact ⟨_, swapped, record, rfl, after, changed, rfl⟩

end InstanceConfigurationService

end MarketingAgents
