import MarketingAgents.Persistence.StoredConfigurations
import MarketingAgents.Security.ConfigurationPseudonyms

namespace MarketingAgents

open Library
open Library.JsonText

/-! # What audits tell apart

Pseudonyms stand for composed texts, so that two snapshots agree once composed
exactly when the configurations do.
-/

section

variable {φ : Type} {audit : PseudonymSupport φ} {key fieldDomain : String}

theorem pseudonymizeText_str (value : String) :
    audit.pseudonymizeText key fieldDomain (.str value) =
    .ok (.str (audit.pseudonym key fieldDomain value)) := rfl

theorem pseudonymizeText_optional (value : Option String) :
    audit.pseudonymizeText key fieldDomain (.optional .str value) =
      .ok (.optional .str (value.map (audit.pseudonym key fieldDomain))) := by
  cases value <;> rfl

theorem updateItem_record {name : String}
    {update : PythonValue φ → Except Rejection (PythonValue φ)}
    (each : List.Forall₂ (fun field other => field.1 = other.1 ∧
      if field.1 = name then update field.2 = .ok other.2
      else field.2 = other.2) fields updated) :
    (PythonValue.record fields).updateItem name update = .ok (.record updated) := by
  simp only [PythonValue.record, PythonValue.updateItem, bind_ok, pure_ok, mapM_ok,
    PythonValue.mapping.injEq,
    exists_eq_right, List.forall₂_map_left_iff, List.forall₂_map_right_iff, Option.some.injEq]
  refine each.imp fun field other holds => ?_
  obtain ⟨named, holds⟩ := holds
  split at holds
  · rename_i same
    rw [if_pos same]
    exact bind_ok.mpr ⟨_, holds, by rw [named]; rfl⟩
  · rename_i differs
    rw [if_neg differs, pure_ok]
    exact Prod.ext (congrArg some named) holds

theorem trigger_masked (binding : InstanceTriggerBinding) :
    audit.pseudonymizeFields key ["event_source", "cron", "timezone"] (.record binding.fields) =
      .ok (.record (binding.masked (audit.pseudonym key)).fields) := by
  let sourced : InstanceTriggerBinding :=
    { binding with eventSource := binding.eventSource.map (audit.pseudonym key "event_source") }
  let timed : InstanceTriggerBinding :=
    { sourced with cron := binding.cron.map (audit.pseudonym key "cron") }
  have first : (PythonValue.record binding.fields).updateItem "event_source"
      (audit.pseudonymizeText key "event_source") = .ok (.record sourced.fields) := by
    apply updateItem_record
    simp [InstanceTriggerBinding.fields, pseudonymizeText_optional, sourced]
  have second : (PythonValue.record sourced.fields).updateItem "cron"
    (audit.pseudonymizeText key "cron") =
      .ok (.record timed.fields) := by
    apply updateItem_record
    simp [InstanceTriggerBinding.fields, pseudonymizeText_optional, sourced, timed]
  have third : (PythonValue.record timed.fields).updateItem "timezone"
    (audit.pseudonymizeText key "timezone") =
      .ok (.record (binding.masked (audit.pseudonym key)).fields) := by
    apply updateItem_record
    simp [InstanceTriggerBinding.fields, pseudonymizeText_optional, sourced, timed,
      InstanceTriggerBinding.masked]
  simp only [PseudonymSupport.pseudonymizeFields, List.foldlM_cons, List.foldlM_nil, bind_ok]
  exact ⟨_, first, _, second, _, third, rfl⟩

theorem connector_masked (binding : InstanceConnectorBinding) :
    audit.pseudonymizeFields key ["binding_id"] (.record binding.fields) =
      .ok (.record (binding.masked (audit.pseudonym key)).fields) := by
  have updated : (PythonValue.record binding.fields).updateItem "binding_id"
      (audit.pseudonymizeText key "binding_id") =
          .ok (.record (binding.masked (audit.pseudonym key)).fields) := by
    apply updateItem_record
    simp [InstanceConnectorBinding.fields, pseudonymizeText_str, InstanceConnectorBinding.masked]
  simp only [PseudonymSupport.pseudonymizeFields, List.foldlM_cons, List.foldlM_nil, bind_ok]
  exact ⟨_, updated, rfl⟩

theorem schedule_masked (schedule : InstanceSchedule) :
    audit.pseudonymizeFields key ["cron", "timezone"] (.record schedule.fields) =
      .ok (.record (schedule.masked (audit.pseudonym key)).fields) := by
  let timed : InstanceSchedule := { schedule with cron := audit.pseudonym key "cron" schedule.cron }
  have first : (PythonValue.record schedule.fields).updateItem "cron"
    (audit.pseudonymizeText key "cron") =
      .ok (.record timed.fields) := by
    apply updateItem_record
    simp [InstanceSchedule.fields, pseudonymizeText_str, timed]
  have second : (PythonValue.record timed.fields).updateItem "timezone"
    (audit.pseudonymizeText key "timezone") =
      .ok (.record (schedule.masked (audit.pseudonym key)).fields) := by
    apply updateItem_record
    simp [InstanceSchedule.fields, pseudonymizeText_str, timed, InstanceSchedule.masked]
  simp only [PseudonymSupport.pseudonymizeFields, List.foldlM_cons, List.foldlM_nil, bind_ok]
  exact ⟨_, first, _, second, rfl⟩

theorem triggers_masked (bindings : List InstanceTriggerBinding) :
    audit.pseudonymizeTriggers key (triggersMaterial bindings) =
      .ok (triggersMaterial (bindings.map (·.masked (audit.pseudonym key)))) := by
  simp only [triggersMaterial, PseudonymSupport.pseudonymizeTriggers, bind_ok, pure_ok, mapM_ok,
    PythonValue.sequence.injEq, exists_eq_right, List.map_map, List.forall₂_map_left_iff,
      List.forall₂_map_right_iff,
    List.forall₂_same]
  exact fun binding _ => trigger_masked binding

theorem connectors_masked (bindings : List (String × InstanceConnectorBinding)) :
    audit.pseudonymizeConnectors key (connectorsMaterial bindings) =
      .ok (connectorsMaterial (bindings.map fun entry =>
        (entry.1, entry.2.masked (audit.pseudonym key)))) := by
  simp only [connectorsMaterial, PythonValue.record, PseudonymSupport.pseudonymizeConnectors,
    bind_ok, pure_ok,
    mapM_ok, PythonValue.mapping.injEq, exists_eq_right, List.map_map, List.forall₂_map_left_iff,
    List.forall₂_map_right_iff, List.forall₂_same]
  exact fun entry _ => ⟨_, connector_masked entry.2, rfl⟩

/-- The recorded snapshot is that of the masked configuration. -/
theorem snapshot_masked (configuration : InstanceConfiguration) (scheduledInput : Option String) :
    audit.pseudonymizeSnapshot key (.record (configuration.plainFields scheduledInput)) =
      .ok (.record ((configuration.masked (audit.pseudonym key)).plainFields
        (scheduledInput.map (audit.pseudonym key "scheduled_input")))) := by
  let masked := audit.pseudonym key
  let hidden := scheduledInput.map (masked "scheduled_input")
  let labelled : InstanceConfiguration :=
    { configuration with variantLabel := configuration.variantLabel.map (masked "variant_label") }
  let triggered : InstanceConfiguration :=
    { labelled with triggerBindings := configuration.triggerBindings.map (·.masked masked) }
  let connected : InstanceConfiguration :=
    { triggered with
      connectorBindings := configuration.connectorBindings.map fun entry =>
        (entry.1, entry.2.masked masked) }
  have scheduled : (PythonValue.record (configuration.plainFields scheduledInput)).updateItem
    "scheduled_input"
      (audit.pseudonymizeText key "scheduled_input") =
          .ok (.record (configuration.plainFields hidden)) := by
    apply updateItem_record
    cases scheduledInput <;>
      simp [InstanceConfiguration.plainFields, pseudonymizeText_str, hidden, masked]
  have label : (PythonValue.record (configuration.plainFields hidden)).updateItem "variant_label"
      (audit.pseudonymizeText key "variant_label") =
          .ok (.record (labelled.plainFields hidden)) := by
    apply updateItem_record
    cases hidden <;>
      simp [InstanceConfiguration.plainFields, pseudonymizeText_optional, labelled, masked]
  have triggers : (PythonValue.record (labelled.plainFields hidden)).updateItem "trigger_bindings"
      (audit.pseudonymizeTriggers key) = .ok (.record (triggered.plainFields hidden)) := by
    apply updateItem_record
    cases hidden <;>
      simp [InstanceConfiguration.plainFields, triggers_masked, labelled, triggered, masked]
  have connectors : (PythonValue.record (triggered.plainFields hidden)).updateItem
    "connector_bindings"
      (audit.pseudonymizeConnectors key) = .ok (.record (connected.plainFields hidden)) := by
    apply updateItem_record
    cases hidden <;>
      simp [InstanceConfiguration.plainFields, connectors_masked, labelled, triggered,
        connected, masked]
  have schedule : (PythonValue.record (connected.plainFields hidden)).updateItem "schedule"
      (audit.pseudonymizeFields key ["cron", "timezone"]) =
        .ok (.record ((configuration.masked masked).plainFields hidden)) := by
    have each : audit.pseudonymizeFields key ["cron", "timezone"]
        (.optional (fun schedule => .record schedule.fields) configuration.schedule) =
          .ok (.optional (fun schedule => .record schedule.fields)
              (configuration.schedule.map (·.masked masked))) := by
      cases configuration.schedule with
      | none => rfl
      | some schedule => exact schedule_masked schedule
    apply updateItem_record
    cases hidden <;>
      simp [InstanceConfiguration.plainFields, InstanceConfiguration.masked, each, labelled,
        triggered, connected]
  simp only [PseudonymSupport.pseudonymizeSnapshot, bind_ok]
  exact ⟨_, scheduled, _, label, _, triggers, _, connectors, schedule⟩

/-- A keyed digest with plain outputs and without collisions. -/
structure PseudonymSupport.Digests (audit : PseudonymSupport φ) (key : String) : Prop where
  plain : ∀ message, PlainText (audit.hmac key message)
  free : Function.Injective (audit.hmac key)

theorem pseudonym_plain (digests : audit.Digests key) (value : String) :
    PlainText (audit.pseudonym key fieldDomain value) := by
  intro character member
  rw [PseudonymSupport.pseudonym, String.toList_append, List.mem_append] at member
  rcases member with inPrefix | inDigest
  · have plain : ∀ character ∈ auditConfigurationTextPrefix.toList, character.toNat < 128 :=
      plain_of_all (by decide)
    exact plain character inPrefix
  · exact digests.plain _ character inDigest

theorem pseudonym_eq_iff (digests : audit.Digests key) :
    audit.pseudonym key fieldDomain left = audit.pseudonym key fieldDomain right ↔
      audit.codec.text.nfc left = audit.codec.text.nfc right := by
  constructor
  · intro same
    have digest := String.toList_inj.mp (List.append_cancel_left (by
      simpa only [PseudonymSupport.pseudonym, String.toList_append]
        using congrArg String.toList same))
    have bytes := (ByteArray.append_right_inj _).mp (digests.free digest)
    have written : ∀ value, canonicalJsonBytes audit.codec.text audit.codec.numbers
      (.str value : PythonValue φ) =
        .ok (String.ofList (printScalar (.string (audit.codec.text.nfc value)))).toByteArray :=
          fun _ => rfl
    exact (canonicalJsonBytes_eq_iff (written left) (written right)).mp bytes
  · intro same
    rw [PseudonymSupport.pseudonym, PseudonymSupport.pseudonym, same]

theorem masked_str_agrees (keeps : audit.codec.text.KeepsAscii) (digests : audit.Digests key) :
    (PythonValue.str (audit.pseudonym key fieldDomain left) : PythonValue φ).Agrees audit.codec.text
      (.str (audit.pseudonym key fieldDomain right)) ↔
        audit.codec.text.nfc left = audit.codec.text.nfc right := by
  rw [str_agrees, keeps _ (pseudonym_plain digests left), keeps _ (pseudonym_plain digests right),
    pseudonym_eq_iff digests]

theorem masked_optional_agrees (keeps : audit.codec.text.KeepsAscii) (digests : audit.Digests key)
    {left right : Option String} :
    (PythonValue.optional .str (left.map (audit.pseudonym key fieldDomain)) : PythonValue φ).Agrees
      audit.codec.text (.optional .str (right.map (audit.pseudonym key fieldDomain))) ↔
        left.map audit.codec.text.nfc = right.map audit.codec.text.nfc := by
  rw [optional_str_agrees]
  cases left <;> cases right <;>
    simp [keeps _ (pseudonym_plain digests _), pseudonym_eq_iff digests]

theorem kind_agrees {text : TextSupport} (keeps : text.KeepsAscii) {left right : TriggerKind} :
    text.nfc left.value = text.nfc right.value ↔ left = right := by
  refine enumeration_agrees keeps kind_plain fun first second same => ?_
  cases first <;> cases second <;> revert same <;> decide

theorem policy_agrees {text : TextSupport} (keeps : text.KeepsAscii) {left right : MisfirePolicy} :
    text.nfc left.value = text.nfc right.value ↔ left = right := by
  refine enumeration_agrees keeps policy_plain fun first second same => ?_
  cases first <;> cases second <;> revert same <;> decide

theorem workMode_agrees {text : TextSupport} (keeps : text.KeepsAscii) {left right : WorkMode} :
    text.nfc left.value = text.nfc right.value ↔ left = right := by
  refine enumeration_agrees keeps workMode_plain fun first second same => ?_
  cases first <;> cases second <;> revert same <;> decide

theorem optional_policy_agrees {text : TextSupport} (keeps : text.KeepsAscii) :
    (PythonValue.optional (fun policy : MisfirePolicy => .str policy.value) left :
      PythonValue φ).Agrees text
      (.optional (fun policy : MisfirePolicy => .str policy.value) right) ↔ left = right := by
  cases left <;> cases right <;>
    simp [PythonValue.optional, PythonValue.Agrees, PythonValue.nfcAll, PythonValue.Same,
      policy_agrees keeps]

theorem map_nfc_plain {text : TextSupport} (keeps : text.KeepsAscii) {value : Option String}
    (plain : ∀ present ∈ value, PlainText present) : value.map text.nfc = value := by
  cases value with
  | none => rfl
  | some present => exact congrArg some (keeps present (plain present rfl))

theorem triggers_agree_iff (keeps : audit.codec.text.KeepsAscii)
    (zones : PlainZones audit.codec.support.toZoneSupport)
    (digests : audit.Digests key) {left right : InstanceTriggerBinding}
    (leftValid : left.validate audit.codec.support = .ok ())
    (rightValid : right.validate audit.codec.support = .ok ()) :
    (PythonValue.record (left.masked (audit.pseudonym key)).fields : PythonValue φ).Agrees
      audit.codec.text (.record (right.masked (audit.pseudonym key)).fields) ↔
        left.composed audit.codec.text = right.composed audit.codec.text := by
  have plain : ∀ {binding : InstanceTriggerBinding}, binding.validate audit.codec.support = .ok () →
      binding.eventSource.map audit.codec.text.nfc = binding.eventSource ∧
        binding.timezone.map audit.codec.text.nfc = binding.timezone := by
    intro binding valid
    simp only [InstanceTriggerBinding.validate, bind_ok, require_ok, requireOptional_ok] at valid
    obtain ⟨_, source, _, _, _, zone, _⟩ := valid
    exact ⟨map_nfc_plain keeps fun value supplied =>
      (eventSourceText_plain (source value supplied)).1, map_nfc_plain keeps fun value supplied =>
        (requireIanaTimezone_plain zones (zone value supplied)).1⟩
  refine (record_agrees keeps plainNames_triggerKeys rfl rfl).trans ?_
  obtain ⟨leftSource, leftZone⟩ := plain leftValid
  obtain ⟨rightSource, rightZone⟩ := plain rightValid
  simp only [InstanceTriggerBinding.fields, InstanceTriggerBinding.masked, List.forall₂_cons,
    List.Forall₂.nil,
    and_true, str_agrees, kind_agrees keeps, bool_agrees, masked_optional_agrees keeps digests,
    optional_policy_agrees keeps, optional_nat_agrees, leftSource, leftZone, rightSource, rightZone,
    InstanceTriggerBinding.composed, InstanceTriggerBinding.mk.injEq]

theorem connectors_agree_iff (keeps : audit.codec.text.KeepsAscii) (digests : audit.Digests key)
    {left right : InstanceConnectorBinding} (leftValid : left.validate = .ok ())
    (rightValid : right.validate = .ok ()) :
    (PythonValue.record (left.masked (audit.pseudonym key)).fields : PythonValue φ).Agrees
      audit.codec.text (.record (right.masked (audit.pseudonym key)).fields) ↔ left = right := by
  have plain : ∀ {binding : InstanceConnectorBinding}, binding.validate = .ok () →
      audit.codec.text.nfc binding.connectorFamily = binding.connectorFamily ∧
        audit.codec.text.nfc binding.bindingId = binding.bindingId := by
    intro binding valid
    simp only [InstanceConnectorBinding.validate, bind_ok] at valid
    obtain ⟨_, family, bindingId⟩ := valid
    exact ⟨keeps _ (requireConnectorFamily_plain family).1,
      keeps _ (requireConnectorBindingId_plain bindingId).1⟩
  refine (record_agrees keeps plainNames_connectorKeys rfl rfl).trans ?_
  obtain ⟨leftFamily, leftId⟩ := plain leftValid
  obtain ⟨rightFamily, rightId⟩ := plain rightValid
  cases left
  cases right
  simp only at leftFamily leftId rightFamily rightId
  simp only [InstanceConnectorBinding.fields, InstanceConnectorBinding.masked, List.forall₂_cons,
    List.Forall₂.nil, and_true, str_agrees, bool_agrees, pseudonym_eq_iff digests,
      keeps _ (pseudonym_plain digests _), leftFamily, leftId,
    rightFamily, rightId, InstanceConnectorBinding.mk.injEq]

theorem schedules_agree_iff (keeps : audit.codec.text.KeepsAscii)
    (zones : PlainZones audit.codec.support.toZoneSupport)
    (digests : audit.Digests key) {left right : InstanceSchedule}
    (leftValid : left.validate audit.codec.support = .ok ())
    (rightValid : right.validate audit.codec.support = .ok ()) :
    (PythonValue.record (left.masked (audit.pseudonym key)).fields : PythonValue φ).Agrees
      audit.codec.text (.record (right.masked (audit.pseudonym key)).fields) ↔
        left.composed audit.codec.text = right.composed audit.codec.text := by
  have plain : ∀ {schedule : InstanceSchedule}, schedule.validate audit.codec.support = .ok () →
      audit.codec.text.nfc schedule.timezone = schedule.timezone := by
    intro schedule valid
    simp only [InstanceSchedule.validate, bind_ok] at valid
    obtain ⟨_, _, _, zone, _⟩ := valid
    exact keeps _ (requireIanaTimezone_plain zones zone).1
  refine (record_agrees keeps plainNames_scheduleKeys rfl rfl).trans ?_
  have leftZone := plain leftValid
  have rightZone := plain rightValid
  simp only [InstanceSchedule.fields, InstanceSchedule.masked, List.forall₂_cons,
    List.Forall₂.nil, and_true, masked_str_agrees keeps digests, leftZone, rightZone, str_agrees,
      policy_agrees keeps, int_agrees,
    Int.natCast_inj, InstanceSchedule.composed, InstanceSchedule.mk.injEq]

theorem trigger_lists_agree_iff (keeps : audit.codec.text.KeepsAscii)
    (zones : PlainZones audit.codec.support.toZoneSupport) (digests : audit.Digests key)
    {left right : List InstanceTriggerBinding}
    (leftValid : ∀ binding ∈ left, binding.validate audit.codec.support = .ok ())
    (rightValid : ∀ binding ∈ right, binding.validate audit.codec.support = .ok ()) :
    (triggersMaterial (left.map (·.masked (audit.pseudonym key))) : PythonValue φ).Agrees
      audit.codec.text (triggersMaterial (right.map (·.masked (audit.pseudonym key)))) ↔
        left.map (·.composed audit.codec.text) = right.map (·.composed audit.codec.text) := by
  simp only [triggersMaterial, sequence_agrees, List.forall₂_map_left_iff,
    List.forall₂_map_right_iff]
  rw [← List.forall₂_eq_eq_eq, List.forall₂_map_left_iff, List.forall₂_map_right_iff]
  exact related_congr fun first inLeft second inRight =>
    triggers_agree_iff keeps zones digests (leftValid first inLeft) (rightValid second inRight)

/-- Connector bindings as a valid configuration keeps them. -/
structure KeptConnectors (bindings : List (String × InstanceConnectorBinding)) : Prop where
  plain : ∀ entry ∈ bindings, PlainText entry.1
  valid : ∀ entry ∈ bindings, entry.2.validate = .ok ()
  distinct : (bindings.map Prod.fst).Nodup
  sorted : sortedBindings bindings = bindings

theorem plainNames_masked {mask : String → String → String} (kept : KeptConnectors bindings) :
    PlainNames (((bindings.map fun entry => (entry.1, entry.2.masked mask)).map fun entry =>
      (entry.1, (PythonValue.record entry.2.fields : PythonValue φ))).map Prod.fst) := by
  rw [List.map_map, List.map_map]
  exact ⟨List.forall_mem_map.mpr kept.plain, kept.distinct⟩

theorem connector_lists_agree_iff (keeps : audit.codec.text.KeepsAscii)
    (digests : audit.Digests key) (leftKept : KeptConnectors left)
    (rightKept : KeptConnectors right) :
    (connectorsMaterial (left.map fun entry => (entry.1, entry.2.masked (audit.pseudonym key))) :
      PythonValue φ).Agrees
      audit.codec.text (connectorsMaterial (right.map fun entry =>
        (entry.1, entry.2.masked (audit.pseudonym key)))) ↔
        left = right := by
  refine (record_agrees_members keeps (plainNames_masked leftKept)
    (plainNames_masked rightKept)).trans ?_
  simp only [List.length_map, List.map_map, List.forall_mem_map]
  simp only [List.mem_map, exists_exists_and_eq_and, Function.comp_apply]
  constructor
  · rintro ⟨lengths, each⟩
    have inside : left ⊆ right := by
      intro entry listed
      obtain ⟨other, known, named, agrees⟩ := each entry listed
      have same := (connectors_agree_iff keeps digests (leftKept.valid entry listed)
        (rightKept.valid other known)).mp agrees
      rwa [Prod.ext named.symm same]
    have perm : left.Perm right :=
      (List.subperm_of_subset (leftKept.distinct.of_map _) inside).perm_of_length_le lengths.ge
    have built := sortedBindings_eq leftKept.distinct perm
    rwa [leftKept.sorted, rightKept.sorted] at built
  · rintro rfl
    exact ⟨rfl, fun entry listed => ⟨entry, listed, rfl,
      (connectors_agree_iff keeps digests (leftKept.valid entry listed)
        (leftKept.valid entry listed)).mpr rfl⟩⟩

theorem optional_schedules_agree_iff (keeps : audit.codec.text.KeepsAscii)
    (zones : PlainZones audit.codec.support.toZoneSupport) (digests : audit.Digests key)
    {left right : Option InstanceSchedule}
    (leftValid : ∀ schedule ∈ left, schedule.validate audit.codec.support = .ok ())
    (rightValid : ∀ schedule ∈ right, schedule.validate audit.codec.support = .ok ()) :
    (PythonValue.optional (fun schedule : InstanceSchedule => .record schedule.fields)
      (left.map (·.masked (audit.pseudonym key))) : PythonValue φ).Agrees audit.codec.text
      (.optional (fun schedule : InstanceSchedule => .record schedule.fields)
        (right.map (·.masked (audit.pseudonym key)))) ↔
        left.map (·.composed audit.codec.text) = right.map (·.composed audit.codec.text) := by
  cases left with
  | none =>
      cases right <;>
        simp [PythonValue.optional, PythonValue.Agrees, PythonValue.nfcAll, PythonValue.Same,
          PythonValue.record]
  | some first =>
      cases right with
      | none =>
          simp [PythonValue.optional, PythonValue.Agrees, PythonValue.nfcAll, PythonValue.Same,
            PythonValue.record]
      | some second =>
          simp only [Option.map_some, PythonValue.optional, Option.some.injEq]
          exact schedules_agree_iff keeps zones digests (leftValid first rfl)
            (rightValid second rfl)

theorem authorities_agree_iff {text : TextSupport} (keeps : text.KeepsAscii)
    {left right : ScheduledInputAuthority}
    (leftValid : left.validate = .ok ()) (rightValid : right.validate = .ok ()) :
    (PythonValue.record left.fields : PythonValue φ).Agrees text (.record right.fields) ↔
      left = right := by
  have plain : ∀ {authority : ScheduledInputAuthority}, authority.validate = .ok () →
      text.nfc authority.workflowId = authority.workflowId ∧
      text.nfc authority.workflowDefinitionHash = authority.workflowDefinitionHash ∧
      text.nfc authority.inputSchemaId = authority.inputSchemaId ∧
      text.nfc authority.inputSchemaHash = authority.inputSchemaHash ∧
      text.nfc authority.digestKeyVersion = authority.digestKeyVersion ∧
      text.nfc authority.bindingDigest = authority.bindingDigest := by
    intro authority valid
    simp only [ScheduledInputAuthority.validate, bind_ok] at valid
    obtain ⟨_, workflow, _, schemaId, _, version, _, schemaHash, _, digest, definition⟩ := valid
    exact ⟨keeps _ (requireId_plain workflow).1, keeps _ (requireDigest_plain definition).1,
      keeps _ (requireId_plain schemaId).1, keeps _ (requireSchemaHash_plain schemaHash).1,
      keeps _ (requireId_plain version).1, keeps _ (requireDigest_plain digest).1⟩
  refine (record_agrees keeps plainNames_authorityKeys rfl rfl).trans ?_
  have leftPlain := plain leftValid
  have rightPlain := plain rightValid
  cases left
  cases right
  simp only at leftPlain rightPlain
  simp only [ScheduledInputAuthority.fields, List.forall₂_cons, List.Forall₂.nil, and_true,
    str_agrees, leftPlain, rightPlain, ScheduledInputAuthority.mk.injEq]

section

variable {codec : ConfigurationCodec φ}

theorem scheduledInputText_ok :
    codec.scheduledInputText snapshot = .ok raw ↔
      ∃ payload, codec.payloadValue snapshot = .ok payload ∧
      canonicalJsonBytes codec.text codec.numbers (.record (snapshot.toMapping payload)) =
        .ok raw.toByteArray := by
  simp only [ConfigurationCodec.scheduledInputText, bind_ok, requireSome_ok,
    ConfigurationCodec.fromUTF8?_some]
  constructor
  · rintro ⟨payload, loaded, _, written, rfl⟩
    exact ⟨payload, loaded, written⟩
  · rintro ⟨payload, loaded, written⟩
    exact ⟨payload, loaded, _, written, rfl⟩

/-- A snapshot as its constructor froze it. -/
def ScheduledInput.Frozen (codec : ConfigurationCodec φ) (snapshot : ScheduledInput) : Prop :=
  snapshot.validate = .ok () ∧ ∃ frozen, codec.freezePayload frozen = .ok snapshot.admittedPayload

theorem payloadValue_frozen {snapshot : ScheduledInput} (frozen : snapshot.Frozen codec) :
    ∃ payload, codec.payloadValue snapshot = .ok payload ∧
    payload.Settled codec.text codec.numbers ∧
      payload.WrittenAs codec.numbers snapshot.admittedPayload := by
  obtain ⟨_, _, canonical⟩ := frozen
  obtain ⟨members, ofJson, settled, written⟩ := freezePayload_ok canonical
  exact ⟨_, requireSome_ok.mpr ofJson, settled, written⟩

/-- Snapshots are told apart by their texts. -/
theorem scheduledInputText_eq_iff (keeps : codec.text.KeepsAscii) {first second : ScheduledInput}
    (firstFrozen : first.Frozen codec) (secondFrozen : second.Frozen codec)
    (firstText : codec.scheduledInputText first = .ok left)
    (secondText : codec.scheduledInputText second = .ok right) :
    left = right ↔ first = second := by
  obtain ⟨payload, known, settled, documented⟩ := payloadValue_frozen firstFrozen
  obtain ⟨other, otherKnown, otherSettled, otherDocumented⟩ := payloadValue_frozen secondFrozen
  obtain ⟨_, loaded, written⟩ := scheduledInputText_ok.mp firstText
  obtain ⟨_, otherLoaded, otherWritten⟩ := scheduledInputText_ok.mp secondText
  obtain rfl := Except.ok.inj (known.symm.trans loaded)
  obtain rfl := Except.ok.inj (otherKnown.symm.trans otherLoaded)
  have payloads : payload.Agrees codec.text other ↔
      first.admittedPayload = second.admittedPayload := by
    rw [PythonValue.Agrees, settled_nfcAll settled, settled_nfcAll otherSettled]
    exact same_iff settled otherSettled documented otherDocumented
  have authorities : ∀ {snapshot : ScheduledInput}, snapshot.Frozen codec →
      ∀ authority ∈ snapshot.authority, authority.validate = .ok () := by
    intro snapshot frozen authority supplied
    have checks := frozen.1
    simp only [ScheduledInput.validate, bind_ok, requireOptional_ok] at checks
    exact checks.choose_spec.2 authority supplied
  have firstAuthority := authorities firstFrozen
  have secondAuthority := authorities secondFrozen
  rw [← String.toByteArray_inj, canonicalJsonBytes_eq_iff written otherWritten]
  refine (record_agrees keeps plainNames_scheduled rfl rfl).trans ?_
  obtain ⟨_, _, authority⟩ := first
  obtain ⟨_, _, otherAuthority⟩ := second
  have agree : (PythonValue.optional (fun authority : ScheduledInputAuthority =>
    .record authority.fields) authority :
      PythonValue φ).Agrees codec.text
        (.optional (fun authority : ScheduledInputAuthority => .record authority.fields)
          otherAuthority) ↔
      authority = otherAuthority := by
    cases authority with
    | none =>
        cases otherAuthority <;>
          simp [PythonValue.optional, PythonValue.Agrees, PythonValue.nfcAll, PythonValue.Same,
            PythonValue.record]
    | some present =>
        cases otherAuthority with
        | none =>
            simp [PythonValue.optional, PythonValue.Agrees, PythonValue.nfcAll, PythonValue.Same,
              PythonValue.record]
        | some another =>
            rw [Option.some.injEq]
            exact authorities_agree_iff keeps (firstAuthority present rfl)
              (secondAuthority another rfl)
  simp only [ScheduledInput.toMapping, List.forall₂_cons, List.Forall₂.nil, and_true,
    payloads, str_agrees, workMode_agrees keeps, agree, ScheduledInput.mk.injEq]

end

end

end MarketingAgents
