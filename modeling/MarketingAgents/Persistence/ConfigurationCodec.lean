import MarketingAgents.Domain.CanonicalWriting
import MarketingAgents.Domain.InstanceConfiguration
import MarketingAgents.Domain.PolicyHash
import MarketingAgents.Persistence.ScheduleRepository

namespace MarketingAgents

open Library

/-! # The stored form of configurations

A configuration is kept as several canonical texts with one digest over all of
its material.
-/

/-- The operations that configurations are written and read with. -/
structure ConfigurationCodec (φ : Type) where
  support : ConfigurationSupport
  numbers : NumberSupport φ
  sha256 : ByteArray → String

/-- The columns of a configuration row. -/
structure StoredConfiguration where
  instanceId : String
  enabled : Bool
  variantLabel : Option String
  triggerBindingsJson : String
  connectorBindingsJson : String
  scheduleJson : String
  scheduledInputJson : Option String
  version : Nat
  integrityDigest : String
deriving DecidableEq

/-- What the digest of a configuration is taken of. -/
structure ConfigurationMaterial (φ : Type) where
  instanceId : String
  enabled : Bool
  variantLabel : Option String
  triggerBindings : PythonValue φ
  connectorBindings : PythonValue φ
  schedule : PythonValue φ
  configurationRevision : Nat
  scheduledInput : Option (PythonValue φ)

def configurationIntegrityDomain : ByteArray :=
  "marketing-agents:instance-configuration:persistence:v1\x00".toByteArray

def maxSnapshotBytes : Nat := 65536

def triggerKeys : List String :=
  ["type", "enabled", "event_source", "cron", "timezone", "misfire_policy", "misfire_grace_seconds"]

def connectorKeys : List String := ["connector_family", "binding_id", "enabled"]

def scheduleKeys : List String := ["cron", "timezone", "misfire_policy", "misfire_grace_seconds"]

def authorityKeys : List String :=
  ["workflow_id", "workflow_definition_hash", "input_schema_id", "input_schema_hash",
    "digest_key_version", "binding_digest"]

section

variable {φ : Type}

def InstanceTriggerBinding.fields (binding : InstanceTriggerBinding) :
    List (String × PythonValue φ) :=
  [("type", .str binding.kind.value),
    ("enabled", .bool binding.enabled),
    ("event_source", .optional .str binding.eventSource),
    ("cron", .optional .str binding.cron),
    ("timezone", .optional .str binding.timezone),
    ("misfire_policy", .optional (fun policy : MisfirePolicy => .str policy.value)
      binding.misfirePolicy),
    ("misfire_grace_seconds",
      .optional (fun grace : Nat => .int grace) binding.misfireGraceSeconds)]

def InstanceConnectorBinding.fields (binding : InstanceConnectorBinding) :
    List (String × PythonValue φ) :=
  [("connector_family", .str binding.connectorFamily),
    ("binding_id", .str binding.bindingId),
    ("enabled", .bool binding.enabled)]

def InstanceSchedule.fields (schedule : InstanceSchedule) : List (String × PythonValue φ) :=
  [("cron", .str schedule.cron),
    ("timezone", .str schedule.timezone),
    ("misfire_policy", .str schedule.misfirePolicy.value),
    ("misfire_grace_seconds", .int schedule.misfireGraceSeconds)]

def ScheduledInputAuthority.fields (authority : ScheduledInputAuthority) :
    List (String × PythonValue φ) :=
  [("workflow_id", .str authority.workflowId),
    ("workflow_definition_hash", .str authority.workflowDefinitionHash),
    ("input_schema_id", .str authority.inputSchemaId),
    ("input_schema_hash", .str authority.inputSchemaHash),
    ("digest_key_version", .str authority.digestKeyVersion),
    ("binding_digest", .str authority.bindingDigest)]

/-- A scheduled input with its payload as a mapping. -/
def ScheduledInput.toMapping (snapshot : ScheduledInput) (payload : PythonValue φ) :
    List (String × PythonValue φ) :=
  [("input", payload),
    ("mode", .str snapshot.mode.value),
    ("authority", .optional (fun authority => .record authority.fields) snapshot.authority)]

def triggersMaterial (bindings : List InstanceTriggerBinding) : PythonValue φ :=
  .sequence (bindings.map fun binding => .record binding.fields)

def connectorsMaterial (bindings : List (String × InstanceConnectorBinding)) : PythonValue φ :=
  .record (bindings.map fun entry => (entry.1, .record entry.2.fields))

def ConfigurationMaterial.fields (material : ConfigurationMaterial φ) :
    List (String × PythonValue φ) :=
  [("instance_id", .str material.instanceId),
    ("enabled", .bool material.enabled),
    ("variant_label", .optional .str material.variantLabel),
    ("trigger_bindings", material.triggerBindings),
    ("connector_bindings", material.connectorBindings),
    ("schedule", material.schedule),
    ("configuration_revision", .int material.configurationRevision)] ++
  material.scheduledInput.toList.map fun snapshot => ("scheduled_input", snapshot)

namespace PythonValue

def asStr : PythonValue φ → Option String
  | .str value => some value
  | _ => none

def asBool : PythonValue φ → Option Bool
  | .bool value => some value
  | _ => none

def asNat : PythonValue φ → Option Nat
  | .int (.ofNat value) => some value
  | _ => none

def asOptional {α : Type} (read : PythonValue φ → Option α) : PythonValue φ → Option (Option α)
  | .null => some none
  | value => (read value).map some

/-- The field of a record, as its constructor takes it. -/
def field {α : Type} (item : PythonValue φ) (name : String) (read : PythonValue φ → Option α) :
    Except Rejection α :=
  requireSome ((item.item? name).bind read) "ValueError" (name ++ " is invalid")

end PythonValue

def readAuthority (item : PythonValue φ) : Except Rejection ScheduledInputAuthority := do
  require (item.hasExactly authorityKeys) "ValueError"
    "persisted scheduled authority has an invalid shape"
  let workflowId ← item.field "workflow_id" PythonValue.asStr
  let workflowDefinitionHash ← item.field "workflow_definition_hash" PythonValue.asStr
  let inputSchemaId ← item.field "input_schema_id" PythonValue.asStr
  let inputSchemaHash ← item.field "input_schema_hash" PythonValue.asStr
  let digestKeyVersion ← item.field "digest_key_version" PythonValue.asStr
  let bindingDigest ← item.field "binding_digest" PythonValue.asStr
  let authority : ScheduledInputAuthority :=
    { workflowId, workflowDefinitionHash, inputSchemaId, inputSchemaHash, digestKeyVersion,
      bindingDigest }
  authority.validate
  return authority

def readConnector (item : PythonValue φ) : Except Rejection InstanceConnectorBinding := do
  require (item.hasExactly connectorKeys) "ValueError"
    "persisted connector binding has an invalid shape"
  let connectorFamily ← item.field "connector_family" PythonValue.asStr
  let bindingId ← item.field "binding_id" PythonValue.asStr
  let enabled ← item.field "enabled" PythonValue.asBool
  let binding : InstanceConnectorBinding := { connectorFamily, bindingId, enabled }
  binding.validate
  return binding

def readConnectors (value : PythonValue φ) :
    Except Rejection (List (String × InstanceConnectorBinding)) :=
  match value with
  | .mapping members => members.mapM fun member => do
      let family ← requireSome member.1 "ValueError"
        "persisted connector binding has an invalid shape"
      let binding ← readConnector member.2
      return (family, binding)
  | _ => reject "ValueError" "persisted configuration collections have invalid shapes"

/-- A stored part that may be null. -/
def readOptional {α : Type} (read : PythonValue φ → Except Rejection α) :
    PythonValue φ → Except Rejection (Option α)
  | .null => .ok none
  | value => some <$> read value

namespace ConfigurationCodec

variable (codec : ConfigurationCodec φ)

def text : TextSupport := codec.support.toTextSupport

def hashing : HashSupport φ where
  text := codec.text
  numbers := codec.numbers
  sha256 := codec.sha256

/-- The payload of an input as its constructor froze it. -/
def payloadValue (snapshot : ScheduledInput) : Except Rejection (PythonValue φ) :=
  requireSome (PythonValue.ofJson codec.numbers snapshot.admittedPayload) "ValueError"
    "invalid JSON"

def scheduledMaterial (snapshot : ScheduledInput) : Except Rejection (PythonValue φ) := do
  require snapshot.authority.isSome "scheduled_input_unbound"
    "scheduled input must carry server-issued authority"
  let payload ← codec.payloadValue snapshot
  return .record (snapshot.toMapping payload)

def configurationMaterial (configuration : InstanceConfiguration) :
    Except Rejection (ConfigurationMaterial φ) := do
  let scheduledInput ← configuration.scheduledInput.mapM codec.scheduledMaterial
  return {
    instanceId := configuration.instanceId
    enabled := configuration.enabled
    variantLabel := configuration.variantLabel
    triggerBindings := triggersMaterial configuration.triggerBindings
    connectorBindings := connectorsMaterial (sortedBindings configuration.connectorBindings)
    schedule := .optional (fun schedule => .record schedule.fields) configuration.schedule
    configurationRevision := configuration.configurationRevision
    scheduledInput }

def integrityDigest (material : ConfigurationMaterial φ) : Except Rejection String :=
  codec.sha256 <$> codec.hashing.preimage configurationIntegrityDomain (.record material.fields)

def canonicalText (value : PythonValue φ) (label : String) : Except Rejection String := do
  let payload ← orTampered "instance_configuration_invalid" (label ++ " is not canonical JSON")
    (canonicalJsonBytes codec.text codec.numbers value)
  require (payload.size ≤ maxSnapshotBytes) "instance_configuration_invalid"
    (label ++ " exceeds the persistence byte limit")
  requireSome (String.fromUTF8? payload) "UnicodeDecodeError" "invalid start byte"

def toRow (configuration : InstanceConfiguration) : Except Rejection StoredConfiguration := do
  let material ← codec.configurationMaterial configuration
  let triggerBindingsJson ← codec.canonicalText material.triggerBindings "trigger bindings"
  let connectorBindingsJson ← codec.canonicalText material.connectorBindings "connector bindings"
  let scheduleJson ← codec.canonicalText material.schedule "schedule"
  let scheduledInputJson ← material.scheduledInput.mapM (codec.canonicalText · "scheduled input")
  let integrityDigest ← codec.integrityDigest material
  return {
    instanceId := configuration.instanceId
    enabled := configuration.enabled
    variantLabel := configuration.variantLabel
    triggerBindingsJson, connectorBindingsJson, scheduleJson, scheduledInputJson
    version := configuration.configurationRevision
    integrityDigest }

def parseCanonicalText (raw label : String) : Except Rejection (PythonValue φ) := do
  let value ← requireSome (jsonLoads codec.numbers raw.toByteArray)
    "instance_configuration_tampered" ("persisted " ++ label ++ " is not valid canonical JSON")
  let canonical ← orTampered "instance_configuration_tampered"
    ("persisted " ++ label ++ " is not valid canonical JSON") (codec.canonicalText value label)
  require (canonical = raw) "instance_configuration_tampered"
    ("persisted " ++ label ++ " is not canonical JSON")
  return value

def rowMaterial (row : StoredConfiguration) : Except Rejection (ConfigurationMaterial φ) := do
  let triggerBindings ← codec.parseCanonicalText row.triggerBindingsJson "trigger bindings"
  let connectorBindings ← codec.parseCanonicalText row.connectorBindingsJson "connector bindings"
  let schedule ← codec.parseCanonicalText row.scheduleJson "schedule"
  let scheduledInput ← row.scheduledInputJson.mapM (codec.parseCanonicalText · "scheduled input")
  return {
    instanceId := row.instanceId
    enabled := row.enabled
    variantLabel := row.variantLabel
    triggerBindings, connectorBindings, schedule
    configurationRevision := row.version
    scheduledInput }

def readTrigger (item : PythonValue φ) : Except Rejection InstanceTriggerBinding := do
  require (item.hasExactly triggerKeys) "ValueError"
    "persisted trigger binding has an invalid shape"
  let kind ← item.field "type" fun value => value.asStr.bind TriggerKind.ofValue?
  let enabled ← item.field "enabled" PythonValue.asBool
  let eventSource ← item.field "event_source" (PythonValue.asOptional PythonValue.asStr)
  let cron ← item.field "cron" (PythonValue.asOptional PythonValue.asStr)
  let timezone ← item.field "timezone" (PythonValue.asOptional PythonValue.asStr)
  let misfirePolicy ← item.field "misfire_policy"
    (PythonValue.asOptional fun value => value.asStr.bind MisfirePolicy.ofValue?)
  let misfireGraceSeconds ← item.field "misfire_grace_seconds"
    (PythonValue.asOptional PythonValue.asNat)
  let binding : InstanceTriggerBinding :=
    { kind, enabled, eventSource, cron, timezone, misfirePolicy, misfireGraceSeconds }
  binding.validate codec.support
  return binding

def readTriggers (value : PythonValue φ) : Except Rejection (List InstanceTriggerBinding) :=
  match value with
  | .sequence items => items.mapM codec.readTrigger
  | _ => reject "ValueError" "persisted configuration collections have invalid shapes"

def readSchedule (item : PythonValue φ) : Except Rejection InstanceSchedule := do
  require (item.hasExactly scheduleKeys) "ValueError" "persisted schedule has an invalid shape"
  let cron ← item.field "cron" PythonValue.asStr
  let timezone ← item.field "timezone" PythonValue.asStr
  let misfirePolicy ← item.field "misfire_policy" fun value =>
    value.asStr.bind MisfirePolicy.ofValue?
  let misfireGraceSeconds ← item.field "misfire_grace_seconds" PythonValue.asNat
  let schedule : InstanceSchedule := { cron, timezone, misfirePolicy, misfireGraceSeconds }
  schedule.validate codec.support
  return schedule

/-- The document of a payload, which has to be an object. -/
def freezePayload (value : PythonValue φ) : Except Rejection JsonValue :=
  match value with
  | .mapping _ => do
      let normalized ← value.normalize codec.text codec.numbers
      normalized.document codec.numbers
  | _ => reject "ValueError" "scheduled input must be a JSON object"

def readScheduledInput (item : PythonValue φ) : Except Rejection ScheduledInput := do
  require (item.hasExactly ["input", "mode", "authority"]) "ValueError"
    "persisted scheduled input has an invalid shape"
  let stored ← item.field "authority" some
  let authority ← readAuthority stored
  let payload ← item.field "input" some
  let admittedPayload ← codec.freezePayload payload
  let mode ← item.field "mode" fun value => value.asStr.bind WorkMode.ofValue?
  let snapshot : ScheduledInput := { admittedPayload, mode, authority := some authority }
  snapshot.validate
  return snapshot

/-- The configuration of material whose digest was checked. -/
def readMaterial (material : ConfigurationMaterial φ) : Except Rejection InstanceConfiguration := do
  let triggerBindings ← codec.readTriggers material.triggerBindings
  let connectorBindings ← readConnectors material.connectorBindings
  let schedule ← readOptional codec.readSchedule material.schedule
  let scheduledInput ← material.scheduledInput.mapM codec.readScheduledInput
  InstanceConfiguration.build codec.support {
    instanceId := material.instanceId
    enabled := material.enabled
    variantLabel := material.variantLabel
    triggerBindings, connectorBindings, schedule
    configurationRevision := material.configurationRevision
    scheduledInput }

def toDomain (row : StoredConfiguration) : Except Rejection InstanceConfiguration := do
  let material ← codec.rowMaterial row
  let observedDigest ← codec.integrityDigest material
  require (row.integrityDigest = observedDigest) "instance_configuration_tampered"
    "persisted instance configuration integrity digest does not match"
  orTampered "instance_configuration_tampered" "persisted instance configuration is invalid"
    (codec.readMaterial material)

end ConfigurationCodec

end

end MarketingAgents
