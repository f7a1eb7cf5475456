import MarketingAgents.Persistence.ConfigurationCodec

namespace MarketingAgents

open Library

/-! # Pseudonyms of audited configurations

Audits record a configuration with its operator texts replaced by keyed
digests.
-/

/-- The operations that audited configurations are written with. -/
structure PseudonymSupport (φ : Type) where
  codec : ConfigurationCodec φ
  hmac : String → ByteArray → String

def auditConfigurationTextDomain : ByteArray :=
  "marketing-agents:audit-configuration-text:hmac-sha256:v1\x00".toByteArray

def auditConfigurationTextPrefix : String := "audit-value-hmac-sha256-v1:"

section

variable {φ : Type}

/-- A mapping with the value under one of its names replaced. -/
def PythonValue.updateItem (name : String)
    (update : PythonValue φ → Except Rejection (PythonValue φ)) :
    PythonValue φ → Except Rejection (PythonValue φ)
  | .mapping members => do
      let updated ← members.mapM fun member =>
        if member.1 = some name then do
          let value ← update member.2
          return (member.1, value)
        else return member
      return .mapping updated
  | value => return value

/-- The snapshot of a configuration, with the text of its scheduled input. -/
def InstanceConfiguration.plainFields (configuration : InstanceConfiguration)
    (scheduledInput : Option String) : List (String × PythonValue φ) :=
  [("enabled", .bool configuration.enabled),
    ("variant_label", .optional .str configuration.variantLabel),
    ("trigger_bindings", triggersMaterial configuration.triggerBindings),
    ("connector_bindings", connectorsMaterial configuration.connectorBindings),
    ("schedule", .optional (fun schedule => .record schedule.fields) configuration.schedule)] ++
  scheduledInput.toList.map fun text => ("scheduled_input", .str text)

def ConfigurationCodec.scheduledInputText (codec : ConfigurationCodec φ)
    (snapshot : ScheduledInput) : Except Rejection String := do
  let payload ← codec.payloadValue snapshot
  let bytes ← canonicalJsonBytes codec.text codec.numbers (.record (snapshot.toMapping payload))
  requireSome (String.fromUTF8? bytes) "UnicodeDecodeError" "invalid start byte"

/-- The canonical-JSON-safe snapshot that audits and responses show. -/
def ConfigurationCodec.configurationToPlainMapping (codec : ConfigurationCodec φ)
    (configuration : InstanceConfiguration) : Except Rejection (PythonValue φ) := do
  let scheduledInput ← configuration.scheduledInput.mapM codec.scheduledInputText
  return .record (configuration.plainFields scheduledInput)

namespace PseudonymSupport

variable (audit : PseudonymSupport φ) (key : String)

def pseudonymizeText (fieldDomain : String) (value : PythonValue φ) :
    Except Rejection (PythonValue φ) :=
  match value with
  | .str _ => do
      let bytes ← canonicalJsonBytes audit.codec.text audit.codec.numbers value
      let digest := audit.hmac key
        (auditConfigurationTextDomain ++ fieldDomain.toByteArray ++ "\x00".toByteArray ++ bytes)
      return .str (auditConfigurationTextPrefix ++ digest)
  | _ => return value

/-- A binding with the texts under some names pseudonymized. -/
def pseudonymizeFields (fieldNames : List String) (binding : PythonValue φ) :
    Except Rejection (PythonValue φ) :=
  fieldNames.foldlM (fun sanitized fieldName =>
    sanitized.updateItem fieldName (audit.pseudonymizeText key fieldName)) binding

def pseudonymizeTriggers : PythonValue φ → Except Rejection (PythonValue φ)
  | .sequence bindings => do
      let sanitized ← bindings.mapM
        (audit.pseudonymizeFields key ["event_source", "cron", "timezone"])
      return .sequence sanitized
  | value => return value

def pseudonymizeConnectors : PythonValue φ → Except Rejection (PythonValue φ)
  | .mapping slots => do
      let sanitized ← slots.mapM fun slot => do
        let binding ← audit.pseudonymizeFields key ["binding_id"] slot.2
        return (slot.1, binding)
      return .mapping sanitized
  | value => return value

/-- Copy one deployment snapshot with its operator texts pseudonymized. -/
def pseudonymizeSnapshot (value : PythonValue φ) : Except Rejection (PythonValue φ) := do
  let value ← value.updateItem "scheduled_input" (audit.pseudonymizeText key "scheduled_input")
  let value ← value.updateItem "variant_label" (audit.pseudonymizeText key "variant_label")
  let value ← value.updateItem "trigger_bindings" (audit.pseudonymizeTriggers key)
  let value ← value.updateItem "connector_bindings" (audit.pseudonymizeConnectors key)
  value.updateItem "schedule" (audit.pseudonymizeFields key ["cron", "timezone"])

/-- The bytes that the audit of a change compares. -/
def snapshotBytes (configuration : InstanceConfiguration) : Except Rejection ByteArray := do
  let mapping ← audit.codec.configurationToPlainMapping configuration
  let sanitized ← audit.pseudonymizeSnapshot key mapping
  canonicalJsonBytes audit.codec.text audit.codec.numbers sanitized

end PseudonymSupport

def InstanceTriggerBinding.masked (mask : String → String → String)
    (binding : InstanceTriggerBinding) :
    InstanceTriggerBinding :=
  { binding with
    eventSource := binding.eventSource.map (mask "event_source")
    cron := binding.cron.map (mask "cron")
    timezone := binding.timezone.map (mask "timezone") }

def InstanceConnectorBinding.masked (mask : String → String → String)
    (binding : InstanceConnectorBinding) :
    InstanceConnectorBinding :=
  { binding with bindingId := mask "binding_id" binding.bindingId }

def InstanceSchedule.masked (mask : String → String → String) (schedule : InstanceSchedule) :
    InstanceSchedule :=
  { schedule with cron := mask "cron" schedule.cron, timezone := mask "timezone" schedule.timezone }

/-- A configuration whose operator texts are masked. -/
def InstanceConfiguration.masked (mask : String → String → String)
    (configuration : InstanceConfiguration) :
    InstanceConfiguration :=
  { configuration with
    variantLabel := configuration.variantLabel.map (mask "variant_label")
    triggerBindings := configuration.triggerBindings.map (·.masked mask)
    connectorBindings := configuration.connectorBindings.map fun entry =>
      (entry.1, entry.2.masked mask)
    schedule := configuration.schedule.map (·.masked mask) }

/-- The digest that stands for a text. -/
def PseudonymSupport.pseudonym (audit : PseudonymSupport φ)
    (key fieldDomain value : String) : String :=
  let written := String.ofList (JsonText.printScalar (.string (audit.codec.text.nfc value)))
  auditConfigurationTextPrefix ++ audit.hmac key
    (auditConfigurationTextDomain ++ fieldDomain.toByteArray ++ "\x00".toByteArray ++
      written.toByteArray)

end

end MarketingAgents
