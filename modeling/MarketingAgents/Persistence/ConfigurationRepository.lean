import MarketingAgents.Domain.InstanceConfiguration
import MarketingAgents.Persistence.ScheduleRepository

namespace MarketingAgents

/-! # Configuration rows

One row for each instance, and beside it one trigger row for each of its
bindings, which repeats the row and is replaced together with it.
-/

structure AgentInstanceConfigurationRecord where
  configuration : InstanceConfiguration
  integrityDigest : String
deriving DecidableEq

structure TriggerDefinitionRecord where
  id : String
  instanceId : String
  kind : TriggerKind
  enabled : Bool
  binding : InstanceTriggerBinding
  version : Nat
deriving DecidableEq

/-- The digest of the canonical material of a row, and the identities that are
derived from an instance. -/
structure ConfigurationDigests where
  integrity : InstanceConfiguration → String
  configuredScheduleId : String → String
  triggerId : String → TriggerKind → String

section

variable (support : ConfigurationSupport) (digests : ConfigurationDigests)

/-- A row holds scheduled input only under its authority. -/
def InstanceConfiguration.toRecord (configuration : InstanceConfiguration) :
    Except Rejection AgentInstanceConfigurationRecord := do
  require (∀ snapshot ∈ configuration.scheduledInput, snapshot.authority.isSome)
    "scheduled_input_unbound" "scheduled input must carry server-issued authority"
  return { configuration, integrityDigest := digests.integrity configuration }

def AgentInstanceConfigurationRecord.toDomain (record : AgentInstanceConfigurationRecord) :
    Except Rejection InstanceConfiguration := do
  require (record.integrityDigest = digests.integrity record.configuration)
    "instance_configuration_tampered"
    "persisted instance configuration integrity digest does not match"
  orTampered "instance_configuration_tampered" "persisted instance configuration is invalid"
    (record.configuration.build support)

/-- The trigger rows of a configuration. -/
def triggerRows (configuration : InstanceConfiguration) : List TriggerDefinitionRecord :=
  configuration.triggerBindings.map fun binding => {
    id := digests.triggerId configuration.instanceId binding.kind
    instanceId := configuration.instanceId
    kind := binding.kind
    enabled := binding.enabled
    binding
    version := configuration.configurationRevision }

/-- The stored trigger rows are those of the configuration, in any order. -/
def verifyTriggers (configuration : InstanceConfiguration)
    (triggers : List TriggerDefinitionRecord) : Except Rejection Unit :=
  require (triggers ⊆ triggerRows digests configuration ∧
    triggerRows digests configuration ⊆ triggers) "instance_configuration_tampered"
    "persisted trigger projection differs from its versioned configuration"

/-- The update of a configuration row under its condition. -/
def compareAndSwap (previous replacement : InstanceConfiguration)
    (stored : AgentInstanceConfigurationRecord) :
    Except Rejection (Option AgentInstanceConfigurationRecord) := do
  let record ← replacement.toRecord digests
  require (previous.instanceId = replacement.instanceId ∧
      replacement.configurationRevision = previous.configurationRevision + 1)
    "instance_configuration_revision_invalid"
    "replacement must advance the same instance configuration by exactly one revision"
  if stored.configuration.instanceId = previous.instanceId ∧
      stored.configuration.configurationRevision = previous.configurationRevision ∧
      stored.integrityDigest = digests.integrity previous then
    return some { stored with
      configuration := { record.configuration with instanceId := stored.configuration.instanceId }
      integrityDigest := record.integrityDigest }
  else .ok none

/-- Hold the row of an unchanged configuration until the transaction ends. -/
def fenceRevision (configuration : InstanceConfiguration)
    (stored : AgentInstanceConfigurationRecord) : Bool :=
  stored.configuration.instanceId = configuration.instanceId &&
    stored.configuration.configurationRevision = configuration.configurationRevision &&
    stored.integrityDigest = digests.integrity configuration

end

section

variable {digests : ConfigurationDigests} {previous replacement : InstanceConfiguration}
  {stored record : AgentInstanceConfigurationRecord}

theorem AgentInstanceConfigurationRecord.toDomain_ok {support : ConfigurationSupport}
    {configuration : InstanceConfiguration}
    (read : record.toDomain support digests = .ok configuration) :
    record.integrityDigest = digests.integrity record.configuration ∧
      record.configuration.build support = .ok configuration := by
  simp only [toDomain, bind_ok, require_ok, orTampered_ok] at read
  exact ⟨read.choose_spec.1, read.choose_spec.2⟩

theorem compareAndSwap_some
    (swapped : compareAndSwap digests previous replacement stored = .ok (some record)) :
    stored.configuration.configurationRevision = previous.configurationRevision ∧
      replacement.instanceId = previous.instanceId ∧
      replacement.configurationRevision = previous.configurationRevision + 1 ∧
      record = ⟨replacement, digests.integrity replacement⟩ := by
  simp only [compareAndSwap, bind_ok, require_ok] at swapped
  obtain ⟨fresh, written, _, ⟨instanceId, revision⟩, swapped⟩ := swapped
  simp only [InstanceConfiguration.toRecord, bind_ok, pure_ok] at written
  obtain ⟨_, _, rfl⟩ := written
  split at swapped
  · rename_i matched
    simp only [pure_ok, Option.some.injEq] at swapped
    refine ⟨matched.2.1, instanceId.symm, revision, ?_⟩
    rw [← swapped, matched.1, instanceId]
  · cases swapped

end

end MarketingAgents
