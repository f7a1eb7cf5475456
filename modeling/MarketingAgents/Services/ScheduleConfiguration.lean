import MarketingAgents.Domain.InstanceConfiguration
import MarketingAgents.Persistence.ScheduleRepository

namespace MarketingAgents

open Library

/-! # The configured schedule

A configuration with a schedule and a bound input has a schedule row, which is
projected from it within the transaction that changes the configuration.
-/

/-- Five-field cron recurrence in a time zone. -/
structure RecurrenceCalculator where
  nextOccurrenceAfter : String → String → Time → Except Rejection RecurrenceResult

def RecurrenceCalculator.nextAfter (recurrence : RecurrenceCalculator) (cron timezone : String)
    (afterUtc : Time) : Except Rejection Time := do
  let result ← recurrence.nextOccurrenceAfter cron timezone afterUtc
  return result.scheduledForUtc

/-- The limits that the template of an instance sets. -/
structure InstanceConfigurationConstraints where
  instanceId : String
  templateId : String
  supportedTriggerKinds : List TriggerKind
  allowedConnectorFamilies : List String
  inputMaxBytes : Nat
  inputMaxFieldBytes : Nat

/-- An executable workflow with the validator of its input schema. -/
structure ExecutableWorkflowDefinition where
  id : String
  templateId : String
  targetInstanceIds : List String
  eligibleTriggerKinds : List TriggerKind
  allowedModes : List WorkMode
  inputSchemaId : String
  inputSchemaHash : String
  definitionHash : String
  acceptsInput : JsonValue → Bool

structure ExecutableWorkflowRegistry where
  catalogContentHash : String
  definitions : List ExecutableWorkflowDefinition

/-- What the seal of a scheduled input is taken of. -/
structure ScheduledInputMaterial where
  instanceId : String
  workflowId : String
  workflowDefinitionHash : String
  inputSchemaId : String
  inputSchemaHash : String
  digestKeyVersion : String
  mode : WorkMode
  input : JsonValue

/-- The installed digest key. -/
structure DigestKey where
  version : String
  bindingDigest : ScheduledInputMaterial → String

mutual

/-- Every text and every key has at most so many bytes. -/
def fieldsWithin (limit : Nat) : JsonValue → Bool
  | .scalar (.string text) => text.utf8ByteSize ≤ limit
  | .scalar _ => true
  | .array items => itemsWithin limit items
  | .object members => membersWithin limit members

def itemsWithin (limit : Nat) : List JsonValue → Bool
  | [] => true
  | item :: rest => fieldsWithin limit item && itemsWithin limit rest

def membersWithin (limit : Nat) : List (String × JsonValue) → Bool
  | [] => true
  | (name, item) :: rest =>
    name.utf8ByteSize ≤ limit && fieldsWithin limit item && membersWithin limit rest

end

namespace ExecutableWorkflowRegistry

variable (workflows : ExecutableWorkflowRegistry)

def forCatalogRole (templateId : String) (kind : TriggerKind) :
    Except Rejection ExecutableWorkflowDefinition :=
  requireSome (workflows.definitions.find? fun definition =>
      definition.templateId = templateId && definition.eligibleTriggerKinds.head? = some kind)
    "workflow_unknown" "workflow is not registered"

def requireMatch (workflowId instanceId templateId : String) (kind : TriggerKind) (mode : WorkMode)
    (catalogContentHash : String) : Except Rejection ExecutableWorkflowDefinition := do
  let definition ← requireSome (workflows.definitions.find? fun definition =>
    definition.id = workflowId) "workflow_unknown" "workflow is not registered"
  require (instanceId ∈ definition.targetInstanceIds ∧ templateId = definition.templateId ∧
      kind ∈ definition.eligibleTriggerKinds ∧ mode ∈ definition.allowedModes ∧
      catalogContentHash = workflows.catalogContentHash)
    "workflow_binding_mismatch" "workflow does not match the admitted route"
  return definition

end ExecutableWorkflowRegistry

section

variable (key : DigestKey)

def ScheduledInputAuthority.material (authority : ScheduledInputAuthority) (instanceId : String)
    (mode : WorkMode) (input : JsonValue) : ScheduledInputMaterial where
  instanceId := instanceId
  workflowId := authority.workflowId
  workflowDefinitionHash := authority.workflowDefinitionHash
  inputSchemaId := authority.inputSchemaId
  inputSchemaHash := authority.inputSchemaHash
  digestKeyVersion := authority.digestKeyVersion
  mode := mode
  input := input

def scheduleConfigurationError {α : Type} (message : String) : Except Rejection α :=
  reject "ScheduleConfigurationError" message

/-- Changed payload, routing, schema or key do not verify. -/
def verifyScheduledInput (instanceId : String) (snapshot : ScheduledInput) :
    Except Rejection Unit :=
  match snapshot.authority with
  | none => scheduleConfigurationError "scheduled input authority does not match"
  | some authority =>
      require (authority.digestKeyVersion = key.version ∧ authority.bindingDigest =
          key.bindingDigest (authority.material instanceId snapshot.mode snapshot.admittedPayload))
        "ScheduleConfigurationError" "scheduled input authority does not match"

/-- The authority of a workflow over an input. -/
def ExecutableWorkflowDefinition.authority (definition : ExecutableWorkflowDefinition)
    (instanceId : String) (snapshot : ScheduledInput) : ScheduledInputAuthority :=
  let unsealed : ScheduledInputAuthority := {
    workflowId := definition.id
    workflowDefinitionHash := definition.definitionHash
    inputSchemaId := definition.inputSchemaId
    inputSchemaHash := definition.inputSchemaHash
    digestKeyVersion := key.version
    bindingDigest := String.ofList (List.replicate 64 '0') }
  { unsealed with
    bindingDigest := key.bindingDigest
      (unsealed.material instanceId snapshot.mode snapshot.admittedPayload) }

/-- Validate business input against the schedule contract of its template and seal it. -/
def bindScheduledInput (snapshot : ScheduledInput) (constraints : InstanceConfigurationConstraints)
    (workflows : ExecutableWorkflowRegistry) : Except Rejection ScheduledInput := do
  let definition ← workflows.forCatalogRole constraints.templateId .schedule
  let _ ← workflows.requireMatch definition.id constraints.instanceId
    constraints.templateId .schedule snapshot.mode workflows.catalogContentHash
  if constraints.inputMaxBytes < canonicalSize snapshot.admittedPayload ||
      !fieldsWithin constraints.inputMaxFieldBytes snapshot.admittedPayload then
    scheduleConfigurationError "scheduled input exceeds template limits"
  else do
    require (definition.acceptsInput snapshot.admittedPayload) "JsonSchemaPolicyError"
      "instance_invalid"
    let bound : ScheduledInput :=
      { snapshot with authority := some (definition.authority key constraints.instanceId snapshot) }
    bound.validate
    return bound

end

structure CreateScheduleCommand where
  id : String
  triggerId : String
  instanceId : String
  workflowId : String
  cron : String
  timezone : String
  misfirePolicy : MisfirePolicy
  misfireGraceSeconds : Nat
  enabled : Bool
  afterUtc : Time

/-- The identities that are derived from an instance. -/
structure ScheduleIdentities where
  configuredScheduleId : String → String
  triggerId : String → TriggerKind → String

/-- What a configuration asks of its schedule row. -/
inductive ScheduleSynchronization where
  | nothing
  | create (schedule : Schedule)
  | replace (previous replacement : Schedule)

section

variable (zones : ZoneSupport) (recurrence : RecurrenceCalculator)

/-- The next selection after a boundary, with its evidence checked. -/
def calculateNext (cron timezone : String) (afterUtc : Time) :
    Except Rejection RecurrenceResult := do
  let result ← orTampered "ScheduleConfigurationError"
      "recurrence calculator returned invalid selection evidence" (do
    let result ← recurrence.nextOccurrenceAfter cron timezone afterUtc
    result.validate zones
    require (∀ resolution ∈ result.resolution, resolution.timezone = timezone)
      "ValueError" "recurrence resolution identifies another timezone"
    return result)
  require (afterUtc < result.scheduledForUtc) "ScheduleConfigurationError"
    "recurrence calculator must return a time strictly after the boundary"
  return result

def createSchedule (command : CreateScheduleCommand) : Except Rejection Schedule := do
  let nextRecurrence ← calculateNext zones recurrence command.cron command.timezone command.afterUtc
  Schedule.replace zones {
    id := command.id
    triggerId := command.triggerId
    instanceId := command.instanceId
    workflowId := command.workflowId
    cron := command.cron
    timezone := command.timezone
    nextRunAtUtc := nextRecurrence.scheduledForUtc
    misfirePolicy := command.misfirePolicy
    misfireGraceSeconds := command.misfireGraceSeconds
    enabled := command.enabled
    recurrenceVersion := scheduleRecurrenceVersion
    nextRecurrence := some nextRecurrence }

namespace InstanceConfiguration

variable (configuration : InstanceConfiguration)

def authority? : Option ScheduledInputAuthority := configuration.scheduledInput.bind (·.authority)

/-- The schedule runs: the instance is enabled and has a schedule and a bound input. -/
def schedulable : Bool :=
  configuration.enabled && configuration.schedule.isSome && configuration.authority?.isSome

/-- Whether the row needs a selection of its own for the configured schedule. -/
def reselects (previous : Schedule) (parameters : InstanceSchedule) : Bool :=
  (configuration.schedulable && !previous.enabled) || parameters.cron ≠ previous.cron ||
    parameters.timezone ≠ previous.timezone

/-- The next run of the row: selected anew after both the update and the last
scheduled instant, or kept. -/
def nextSelection (previous : Schedule) (now : Time) :
    Except Rejection (Time × Option RecurrenceResult) :=
  match configuration.schedule with
  | some parameters =>
      if configuration.reselects previous parameters then do
        let selected ← calculateNext zones recurrence parameters.cron parameters.timezone
          (max now (previous.lastScheduledAtUtc.getD now))
        return (selected.scheduledForUtc, some selected)
      else .ok (previous.nextRunAtUtc, previous.nextRecurrence)
  | none => .ok (previous.nextRunAtUtc, previous.nextRecurrence)

/-- The row of a configuration over the row that was there. -/
def projected (previous : Schedule) (next : Time × Option RecurrenceResult) : Schedule :=
  { previous with
    enabled := configuration.schedulable
    nextRunAtUtc := next.1
    nextRecurrence := next.2
    workflowId := (configuration.authority?.map (·.workflowId)).getD previous.workflowId
    cron := (configuration.schedule.map (·.cron)).getD previous.cron
    timezone := (configuration.schedule.map (·.timezone)).getD previous.timezone
    misfirePolicy := (configuration.schedule.map (·.misfirePolicy)).getD previous.misfirePolicy
    misfireGraceSeconds := (configuration.schedule.map (·.misfireGraceSeconds)).getD
      previous.misfireGraceSeconds
    version := previous.version + 1
    configurationRevision := some configuration.configurationRevision }

/-- Project a configuration that is already swapped; commit nothing alone. -/
def synchronize (identities : ScheduleIdentities) (previous : Option Schedule) (now : Time) :
    Except Rejection ScheduleSynchronization :=
  match previous with
  | none =>
      match configuration.schedule, configuration.authority? with
      | some parameters, some authority =>
          if configuration.schedulable then do
            let schedule ← createSchedule zones recurrence {
              id := identities.configuredScheduleId configuration.instanceId
              triggerId := identities.triggerId configuration.instanceId .schedule
              instanceId := configuration.instanceId
              workflowId := authority.workflowId
              cron := parameters.cron
              timezone := parameters.timezone
              misfirePolicy := parameters.misfirePolicy
              misfireGraceSeconds := parameters.misfireGraceSeconds
              enabled := true
              afterUtc := now }
            let created ← Schedule.replace zones
              { schedule with configurationRevision := some configuration.configurationRevision }
            return .create created
          else .ok .nothing
      | _, _ => .ok .nothing
  | some previous => do
      let next ← configuration.nextSelection zones recurrence previous now
      let replacement ← (configuration.projected previous next).replace zones
      return .replace previous replacement

end InstanceConfiguration

end

end MarketingAgents
