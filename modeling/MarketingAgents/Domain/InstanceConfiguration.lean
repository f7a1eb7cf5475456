import Mathlib.Data.List.Sort
import Mathlib.Data.String.Basic
import MarketingAgents.Domain.Schedules
import MarketingAgents.Library.JsonText
import MarketingAgents.Security.Redaction

namespace MarketingAgents

open Library
open Library.JsonText

/-! # Instance configurations

The deployment-only configuration of one agent instance and the patches that
change it.  Payloads are the documents that canonical JSON makes of them.
-/

/-- The text operations of configurations. -/
structure ConfigurationSupport extends TextSupport, ZoneSupport

def lowerAlphanumeric (character : Char) : Bool :=
  'a' ≤ character && character ≤ 'z' || '0' ≤ character && character ≤ '9'

/-- Nonempty runs of lowercase letters and digits between single hyphens. -/
def slugText (characters : List Char) : Bool :=
  (characters.splitOn '-').all fun segment => segment ≠ [] && segment.all lowerAlphanumeric

def requireConnectorFamily (value fieldName : String) : Except Rejection Unit :=
  require (value.toList.length ≤ 100 ∧ slugText value.toList)
    "ValueError" (fieldName ++ " must be a bounded connector-family slug")

def requireConnectorBindingId (value fieldName : String) : Except Rejection Unit :=
  require (value ≠ "" ∧ value.toList.length ≤ 120 ∧
      value.toList.all fun character => alphanumeric character || character ∈ ['.', '_', '-'])
    "ValueError" (fieldName ++ " must be a bounded registered binding identifier")

/-- A safe identifier of at most one hundred characters. -/
def eventSourceText (characters : List Char) : Bool :=
  characters.head?.any alphanumeric && characters.length ≤ 100 &&
    characters.all fun character => alphanumeric character || character ∈ ['.', '_', ':', '-']

/-- The identity and the keyed seal that the service issues for an input. -/
structure ScheduledInputAuthority where
  workflowId : String
  workflowDefinitionHash : String
  inputSchemaId : String
  inputSchemaHash : String
  digestKeyVersion : String
  bindingDigest : String
deriving DecidableEq

def ScheduledInputAuthority.validate (authority : ScheduledInputAuthority) :
    Except Rejection Unit := do
  requireId authority.workflowId "scheduled input authority identity"
  requireId authority.inputSchemaId "scheduled input authority identity"
  requireId authority.digestKeyVersion "scheduled input authority identity"
  requireSchemaHash authority.inputSchemaHash "scheduled input schema hash"
  requireDigest authority.bindingDigest "scheduled input binding digest"
  requireDigest authority.workflowDefinitionHash "scheduled workflow definition hash"

/-- Reusable business input, sealed by the configuration service when it has an authority. -/
structure ScheduledInput where
  admittedPayload : JsonValue
  mode : WorkMode
  authority : Option ScheduledInputAuthority
deriving DecidableEq

/-- The size of the canonical text of a document. -/
def canonicalSize (document : JsonValue) : Nat := (String.ofList (printValue document)).utf8ByteSize

def ScheduledInput.validate (snapshot : ScheduledInput) : Except Rejection Unit := do
  require (canonicalSize snapshot.admittedPayload ≤ 32768)
    "ValueError" "scheduled input exceeds its storage budget"
  requireOptional (·.validate) snapshot.authority

structure InstanceSchedule where
  cron : String
  timezone : String
  misfirePolicy : MisfirePolicy
  misfireGraceSeconds : Nat
deriving DecidableEq

structure InstanceTriggerBinding where
  kind : TriggerKind
  enabled : Bool := true
  eventSource : Option String := none
  cron : Option String := none
  timezone : Option String := none
  misfirePolicy : Option MisfirePolicy := none
  misfireGraceSeconds : Option Nat := none
deriving DecidableEq

structure InstanceConnectorBinding where
  connectorFamily : String
  bindingId : String
  enabled : Bool := true
deriving DecidableEq

/-- The connector bindings are a mapping, listed in the order of its keys. -/
structure InstanceConfiguration where
  instanceId : String
  enabled : Bool
  variantLabel : Option String
  triggerBindings : List InstanceTriggerBinding
  connectorBindings : List (String × InstanceConnectorBinding)
  schedule : Option InstanceSchedule
  configurationRevision : Nat
  scheduledInput : Option ScheduledInput := none
deriving DecidableEq

section

variable (support : ConfigurationSupport)

def InstanceSchedule.validate (schedule : InstanceSchedule) : Except Rejection Unit := do
  requireText support.toZoneSupport.strip schedule.cron "instance schedule cron" 100
  requireIanaTimezone support.toZoneSupport schedule.timezone "instance schedule timezone"
  require (schedule.misfireGraceSeconds ≤ maxMisfireGraceSeconds)
    "ValueError" "instance schedule misfire grace must be an integer from 0 to 86400"

namespace InstanceTriggerBinding

variable (binding : InstanceTriggerBinding)

/-- How many of the four schedule parameters a trigger supplies. -/
def suppliedScheduleValues : Nat :=
  binding.cron.toList.length + binding.timezone.toList.length +
    binding.misfirePolicy.toList.length + binding.misfireGraceSeconds.toList.length

def validateKind : Except Rejection Unit :=
  match binding.kind with
  | .manual => require (binding.eventSource = none ∧ binding.suppliedScheduleValues = 0)
      "ValueError" "manual triggers cannot retain source or schedule parameters"
  | .webhook => require (binding.eventSource ≠ none ∧ binding.suppliedScheduleValues = 0)
      "ValueError" "webhook triggers require only one non-secret event source"
  | .schedule => do
      require (binding.eventSource = none)
        "ValueError" "schedule triggers cannot retain a webhook event source"
      require (binding.enabled → binding.suppliedScheduleValues = 4)
        "ValueError" "enabled schedule triggers require complete schedule parameters"
      require (binding.enabled = false → binding.suppliedScheduleValues = 0)
        "ValueError" "disabled schedule triggers cannot retain schedule parameters"

def validate : Except Rejection Unit := do
  require (∀ source ∈ binding.eventSource, eventSourceText source.toList)
    "ValueError" "instance trigger event source must be a bounded safe identifier"
  requireOptional (requireText support.toZoneSupport.strip · "instance trigger cron" 100)
    binding.cron
  requireOptional (requireIanaTimezone support.toZoneSupport · "instance trigger timezone")
    binding.timezone
  require (∀ grace ∈ binding.misfireGraceSeconds, grace ≤ maxMisfireGraceSeconds)
    "ValueError" "instance trigger misfire grace must be an integer from 0 to 86400"
  binding.validateKind

/-- The schedule that a trigger repeats. -/
def scheduleParameters : Option InstanceSchedule := do
  let cron ← binding.cron
  let timezone ← binding.timezone
  let misfirePolicy ← binding.misfirePolicy
  let misfireGraceSeconds ← binding.misfireGraceSeconds
  return { cron, timezone, misfirePolicy, misfireGraceSeconds }

end InstanceTriggerBinding

def InstanceConnectorBinding.validate (binding : InstanceConnectorBinding) :
    Except Rejection Unit := do
  requireConnectorFamily binding.connectorFamily "instance connector family"
  requireConnectorBindingId binding.bindingId "instance connector binding ID"

/-- Mappings are kept in the order of their keys. -/
def sortedBindings (bindings : List (String × InstanceConnectorBinding)) :
    List (String × InstanceConnectorBinding) :=
  bindings.insertionSort fun left right => left.1 ≤ right.1

namespace InstanceConfiguration

variable (configuration : InstanceConfiguration)

def scheduleTriggers : List InstanceTriggerBinding :=
  configuration.triggerBindings.filter fun binding => binding.kind = .schedule

/-- A schedule stands exactly beside one enabled trigger that repeats it. -/
def validateSchedule : Except Rejection Unit :=
  match configuration.scheduleTriggers with
  | [trigger] =>
      if trigger.enabled then do
        require configuration.schedule.isSome "ValueError"
          "schedule configuration and one enabled schedule trigger must appear together"
        require (trigger.scheduleParameters = configuration.schedule)
          "ValueError" "schedule trigger parameters must exactly match the schedule"
      else
        require (configuration.schedule = none) "ValueError"
          "schedule configuration and one enabled schedule trigger must appear together"
  | _ => require (configuration.schedule = none) "ValueError"
      "schedule configuration and one enabled schedule trigger must appear together"

def validateConnector (family : String) (binding : InstanceConnectorBinding) :
    Except Rejection Unit := do
  requireConnectorFamily family "instance connector binding key"
  require (family = binding.connectorFamily)
    "ValueError" "connector binding keys must exactly match connector families"

/-- A configuration with its label composed and its mapping sorted, once every check passed. -/
def build : Except Rejection InstanceConfiguration := do
  requireId configuration.instanceId "configured instance ID"
  let variantLabel := configuration.variantLabel.map support.nfc
  requireOptional (requireText support.toZoneSupport.strip · "instance variant label" 100)
    variantLabel
  require (configuration.triggerBindings.length ≤ 16)
    "ValueError" "instance trigger bindings must be one bounded immutable tuple"
  require (configuration.triggerBindings.map (·.kind)).Nodup
    "ValueError" "instance trigger kinds must be unique"
  require (configuration.connectorBindings.length ≤ 16)
    "ValueError" "instance connector bindings must be one bounded mapping"
  requireEach (fun entry => validateConnector entry.1 entry.2) configuration.connectorBindings
  require (1 ≤ configuration.configurationRevision)
    "ValueError" "instance configuration revision must be a positive integer"
  configuration.validateSchedule
  return { configuration with
    variantLabel
    connectorBindings := sortedBindings configuration.connectorBindings }

/-- The same projection under another revision. -/
def withRevision (configurationRevision : Nat) : Except Rejection InstanceConfiguration :=
  ({ configuration with configurationRevision } : InstanceConfiguration).build support

/-- What audits and snapshots tell of a configuration: all but its identity and revision. -/
def plainMapping : InstanceConfiguration :=
  { configuration with instanceId := "", configurationRevision := 0 }

end InstanceConfiguration

end

/-- A binding with its expression composed. -/
def InstanceTriggerBinding.composed (text : TextSupport) (binding : InstanceTriggerBinding) :
    InstanceTriggerBinding :=
  { binding with cron := binding.cron.map text.nfc }

def InstanceSchedule.composed (text : TextSupport) (schedule : InstanceSchedule) :
    InstanceSchedule :=
  { schedule with cron := text.nfc schedule.cron }

/-- What a change may alter as its canonical text tells it, with expressions composed. -/
def InstanceConfiguration.composed (text : TextSupport) (configuration : InstanceConfiguration) :
    InstanceConfiguration :=
  { configuration.plainMapping with
    triggerBindings := configuration.triggerBindings.map (·.composed text)
    schedule := configuration.schedule.map (·.composed text) }

section

variable {support : ConfigurationSupport} {configuration built : InstanceConfiguration}

theorem sortedBindings_sorted (bindings : List (String × InstanceConnectorBinding)) :
    sortedBindings (sortedBindings bindings) = sortedBindings bindings := by
  have : Std.Total (fun left right : String × InstanceConnectorBinding => left.1 ≤ right.1) :=
    ⟨fun left right => le_total left.1 right.1⟩
  have : IsTrans (String × InstanceConnectorBinding) (fun left right => left.1 ≤ right.1) :=
    ⟨fun _ _ _ => le_trans⟩
  exact List.Pairwise.insertionSort_eq (List.pairwise_insertionSort _ bindings)

namespace InstanceConfiguration

theorem build_shape (accepted : configuration.build support = .ok built) :
    built = { configuration with
      variantLabel := configuration.variantLabel.map support.nfc
      connectorBindings := sortedBindings configuration.connectorBindings } := by
  simp only [build, bind_ok, pure_ok] at accepted
  obtain ⟨_, _, _, _, _, _, _, _, _, _, _, _, _, _, _, _, same⟩ := accepted
  exact same.symm

theorem build_build (accepted : configuration.build support = .ok built) :
    built.build support = .ok built := by
  have shape := build_shape accepted
  have composed : (configuration.variantLabel.map support.nfc).map support.nfc =
      configuration.variantLabel.map support.nfc := by
    cases configuration.variantLabel <;> simp [support.nfc_idempotent]
  simp only [build, bind_ok, pure_ok, require_ok, requireEach_ok] at accepted ⊢
  obtain ⟨_, named, _, labelled, _, triggers, _, kinds, _, bindings, _, each, _, revision, _,
    schedule, _⟩ := accepted
  subst shape
  refine ⟨(), named, (), ?_, (), triggers, (), kinds, (), ?_, (), ?_, (), revision,
    (), schedule, ?_⟩
  · rwa [composed]
  · simpa [sortedBindings] using bindings
  · intro entry member
    exact each entry ((List.mem_insertionSort _).mp member)
  · rw [composed, sortedBindings_sorted]

end InstanceConfiguration

end

/-- A field that a patch omits, or a supplied value, which may be null. -/
inductive PatchValue (α : Type) where
  | omitted
  | of (value : α)
deriving DecidableEq

namespace PatchValue

variable {α : Type}

def provided : PatchValue α → Bool
  | omitted => false
  | of _ => true

/-- The supplied value, or what stands now. -/
def orCurrent : PatchValue α → α → α
  | omitted, current => current
  | of value, _ => value

end PatchValue

structure InstanceConfigurationPatch where
  enabled : PatchValue Bool := .omitted
  variantLabel : PatchValue (Option String) := .omitted
  triggerBindings : PatchValue (List InstanceTriggerBinding) := .omitted
  connectorBindings : PatchValue (List (String × InstanceConnectorBinding)) := .omitted
  schedule : PatchValue (Option InstanceSchedule) := .omitted
  scheduledInput : PatchValue (Option ScheduledInput) := .omitted
deriving DecidableEq

namespace InstanceConfigurationPatch

variable (patch : InstanceConfigurationPatch)

def isEmpty : Bool :=
  !(patch.enabled.provided || patch.variantLabel.provided || patch.triggerBindings.provided ||
    patch.connectorBindings.provided || patch.schedule.provided || patch.scheduledInput.provided)

/-- Replacements on a configuration, under its own revision. -/
def apply (support : ConfigurationSupport) (current : InstanceConfiguration) :
    Except Rejection InstanceConfiguration :=
  InstanceConfiguration.build support {
    instanceId := current.instanceId
    enabled := patch.enabled.orCurrent current.enabled
    variantLabel := patch.variantLabel.orCurrent current.variantLabel
    triggerBindings := patch.triggerBindings.orCurrent current.triggerBindings
    connectorBindings := patch.connectorBindings.orCurrent current.connectorBindings
    schedule := patch.schedule.orCurrent current.schedule
    configurationRevision := current.configurationRevision
    scheduledInput := patch.scheduledInput.orCurrent current.scheduledInput }

end InstanceConfigurationPatch

end MarketingAgents
