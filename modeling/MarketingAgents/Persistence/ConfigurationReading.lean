import MarketingAgents.Domain.PlainText
import MarketingAgents.Persistence.ConfigurationCodec

namespace MarketingAgents

open Library

/-! # Reading single bindings

A binding is read of exactly the values that agree with its fields.
-/

section

variable {φ : Type} {text : TextSupport} {numbers : NumberSupport φ} {item : PythonValue φ}

namespace PythonValue

theorem field_ok {α : Type} {name : String} {read : PythonValue φ → Option α} {result : α} :
    item.field name read = .ok result ↔ ∃ stored, item.item? name = some stored ∧
      read stored = some result := by
  rw [field, requireSome_ok, Option.bind_eq_some_iff]

theorem field_written {α : Type} {name : String} {read : PythonValue φ → Option α}
    {write : α → PythonValue φ}
    (reads : ∀ {stored value}, read stored = some value ↔ stored = write value) {result : α} :
    item.field name read = .ok result ↔ item.item? name = some (write result) := by
  rw [field_ok]
  exact ⟨fun ⟨_, found, same⟩ => reads.mp same ▸ found, fun found => ⟨_, found, reads.mpr rfl⟩⟩

theorem asStr_some : item.asStr = some value ↔ item = .str value := by
  cases item <;> simp [asStr]

theorem asBool_some {value : Bool} : item.asBool = some value ↔ item = .bool value := by
  cases item <;> simp [asBool]

theorem asNat_some {value : Nat} : item.asNat = some value ↔ item = .int value := by
  cases item with
  | int number => cases number <;> simp [asNat]
  | null | bool | float | str | mapping | sequence | other => simp [asNat]

theorem asOptional_some {α : Type} {read : PythonValue φ → Option α} {write : α → PythonValue φ}
    (reads : ∀ {stored value}, read stored = some value ↔ stored = write value)
    (present : read .null = none)
    {value : Option α} : asOptional read item = some value ↔ item = .optional write value := by
  have written : ∀ value, write value ≠ .null := by
    intro value null
    have absent := reads.mpr null.symm
    rw [present] at absent
    cases absent
  cases value with
  | none => cases item <;> simp [asOptional, optional]
  | some value =>
      have same : item = write value ↔ read item = some value := reads.symm
      cases item with
      | null => simp [asOptional, optional, (written value).symm]
      | bool | int | float | str | mapping | sequence | other =>
          rw [optional, same]
          simp [asOptional]

end PythonValue

theorem TriggerKind.ofValue?_some {value : String} :
    TriggerKind.ofValue? value = some kind ↔ value = kind.value := by
  constructor
  · intro found
    exact (by simpa using List.find?_some found : _ = value).symm
  · rintro rfl
    cases kind <;> rfl

theorem MisfirePolicy.ofValue?_some {value : String} :
    MisfirePolicy.ofValue? value = some policy ↔ value = policy.value := by
  constructor
  · intro found
    exact (by simpa using List.find?_some found : _ = value).symm
  · rintro rfl
    cases policy <;> rfl

theorem WorkMode.ofValue?_some {value : String} :
    WorkMode.ofValue? value = some mode ↔ value = mode.value := by
  constructor
  · intro found
    exact (by simpa using List.find?_some found : _ = value).symm
  · rintro rfl
    cases mode <;> rfl

theorem asKind_some : item.asStr.bind TriggerKind.ofValue? = some kind ↔
    item = .str kind.value := by
  simp only [Option.bind_eq_some_iff, PythonValue.asStr_some, TriggerKind.ofValue?_some]
  exact ⟨fun ⟨_, stored, same⟩ => same ▸ stored, fun stored => ⟨_, stored, rfl⟩⟩

theorem asPolicy_some :
    item.asStr.bind MisfirePolicy.ofValue? = some policy ↔ item = .str policy.value := by
  simp only [Option.bind_eq_some_iff, PythonValue.asStr_some, MisfirePolicy.ofValue?_some]
  exact ⟨fun ⟨_, stored, same⟩ => same ▸ stored, fun stored => ⟨_, stored, rfl⟩⟩

theorem asMode_some : item.asStr.bind WorkMode.ofValue? = some mode ↔ item = .str mode.value := by
  simp only [Option.bind_eq_some_iff, PythonValue.asStr_some, WorkMode.ofValue?_some]
  exact ⟨fun ⟨_, stored, same⟩ => same ▸ stored, fun stored => ⟨_, stored, rfl⟩⟩

variable {codec : ConfigurationCodec φ}

theorem str_field {name value : String} :
    item.field name PythonValue.asStr = .ok value ↔ item.item? name = some (.str value) :=
  PythonValue.field_written PythonValue.asStr_some

theorem bool_field {name : String} {value : Bool} :
    item.field name PythonValue.asBool = .ok value ↔ item.item? name = some (.bool value) :=
  PythonValue.field_written PythonValue.asBool_some

theorem nat_field {name : String} {value : Nat} :
    item.field name PythonValue.asNat = .ok value ↔ item.item? name = some (.int value) :=
  PythonValue.field_written PythonValue.asNat_some

theorem kind_field {name : String} {kind : TriggerKind} :
    item.field name (fun value => value.asStr.bind TriggerKind.ofValue?) = .ok kind ↔
      item.item? name = some (.str kind.value) :=
  PythonValue.field_written asKind_some

theorem policy_field {name : String} {policy : MisfirePolicy} :
    item.field name (fun value => value.asStr.bind MisfirePolicy.ofValue?) = .ok policy ↔
      item.item? name = some (.str policy.value) :=
  PythonValue.field_written asPolicy_some

theorem mode_field {name : String} {mode : WorkMode} :
    item.field name (fun value => value.asStr.bind WorkMode.ofValue?) = .ok mode ↔
      item.item? name = some (.str mode.value) :=
  PythonValue.field_written asMode_some

theorem any_field {name : String} {value : PythonValue φ} :
    item.field name some = .ok value ↔ item.item? name = some value :=
  PythonValue.field_written (Option.some.injEq _ _).to_iff

theorem optional_str_field {name : String} {value : Option String} :
    item.field name (PythonValue.asOptional PythonValue.asStr) = .ok value ↔
      item.item? name = some (.optional .str value) :=
  PythonValue.field_written (PythonValue.asOptional_some PythonValue.asStr_some rfl)

theorem optional_nat_field {name : String} {value : Option Nat} :
    item.field name (PythonValue.asOptional PythonValue.asNat) = .ok value ↔
      item.item? name = some (.optional (fun number : Nat => .int number) value) :=
  PythonValue.field_written (PythonValue.asOptional_some PythonValue.asNat_some rfl)

theorem optional_policy_field {name : String} {policy : Option MisfirePolicy} :
    item.field name (PythonValue.asOptional fun value => value.asStr.bind MisfirePolicy.ofValue?) =
      .ok policy ↔
      item.item? name = some (.optional (fun policy : MisfirePolicy => .str policy.value) policy) :=
  PythonValue.field_written (PythonValue.asOptional_some asPolicy_some rfl)

theorem readAuthority_ok :
    readAuthority item = .ok authority ↔ item.hasExactly authorityKeys = true ∧
      (∀ field ∈ authority.fields, item.item? field.1 = some field.2) ∧
        authority.validate = .ok () := by
  simp only [readAuthority, bind_ok, pure_ok, require_ok, str_field, ScheduledInputAuthority.fields,
    List.forall_mem_cons, List.not_mem_nil, false_implies, implies_true, and_true]
  constructor
  · rintro ⟨_, shaped, _, workflow, _, definition, _, schemaId, _, schemaHash, _, version, _,
      digest, _, valid, rfl⟩
    exact ⟨shaped, ⟨workflow, definition, schemaId, schemaHash, version, digest⟩, valid⟩
  · rintro ⟨shaped, ⟨workflow, definition, schemaId, schemaHash, version, digest⟩, valid⟩
    exact ⟨(), shaped, _, workflow, _, definition, _, schemaId, _, schemaHash, _, version, _,
      digest, (), valid, rfl⟩

theorem readConnector_ok :
    readConnector item = .ok binding ↔ item.hasExactly connectorKeys = true ∧
      (∀ field ∈ binding.fields, item.item? field.1 = some field.2) ∧
        binding.validate = .ok () := by
  simp only [readConnector, bind_ok, pure_ok, require_ok, str_field, bool_field,
    InstanceConnectorBinding.fields,
    List.forall_mem_cons, List.not_mem_nil, false_implies, implies_true, and_true]
  constructor
  · rintro ⟨_, shaped, _, family, _, bindingId, _, enabled, _, valid, rfl⟩
    exact ⟨shaped, ⟨family, bindingId, enabled⟩, valid⟩
  · rintro ⟨shaped, ⟨family, bindingId, enabled⟩, valid⟩
    exact ⟨(), shaped, _, family, _, bindingId, _, enabled, (), valid, rfl⟩

theorem readTrigger_ok :
    codec.readTrigger item = .ok binding ↔ item.hasExactly triggerKeys = true ∧
      (∀ field ∈ binding.fields, item.item? field.1 = some field.2) ∧
        binding.validate codec.support = .ok () := by
  simp only [ConfigurationCodec.readTrigger, bind_ok, pure_ok, require_ok, kind_field, bool_field,
    optional_str_field,
    optional_policy_field, optional_nat_field, InstanceTriggerBinding.fields, List.forall_mem_cons,
      List.not_mem_nil,
    false_implies, implies_true, and_true]
  constructor
  · rintro ⟨_, shaped, _, kind, _, enabled, _, source, _, cron, _, timezone, _, policy, _, grace,
      _, valid, rfl⟩
    exact ⟨shaped, ⟨kind, enabled, source, cron, timezone, policy, grace⟩, valid⟩
  · rintro ⟨shaped, ⟨kind, enabled, source, cron, timezone, policy, grace⟩, valid⟩
    exact ⟨(), shaped, _, kind, _, enabled, _, source, _, cron, _, timezone, _, policy, _, grace,
      (), valid, rfl⟩

theorem readSchedule_ok :
    codec.readSchedule item = .ok schedule ↔ item.hasExactly scheduleKeys = true ∧
      (∀ field ∈ schedule.fields, item.item? field.1 = some field.2) ∧
        schedule.validate codec.support = .ok () := by
  simp only [ConfigurationCodec.readSchedule, bind_ok, pure_ok, require_ok, str_field,
    policy_field, nat_field,
    InstanceSchedule.fields, List.forall_mem_cons, List.not_mem_nil, false_implies,
      implies_true, and_true]
  constructor
  · rintro ⟨_, shaped, _, cron, _, timezone, _, policy, _, grace, _, valid, rfl⟩
    exact ⟨shaped, ⟨cron, timezone, policy, grace⟩, valid⟩
  · rintro ⟨shaped, ⟨cron, timezone, policy, grace⟩, valid⟩
    exact ⟨(), shaped, _, cron, _, timezone, _, policy, _, grace, (), valid, rfl⟩

theorem PlainText.fixed (keeps : text.KeepsAscii) (plain : PlainText value) :
    (PythonValue.str value : PythonValue φ).nfcAll text = .str value := by
  rw [PythonValue.nfcAll, keeps value plain]

theorem plainNames_triggerKeys : PlainNames triggerKeys := by decide

theorem plainNames_connectorKeys : PlainNames connectorKeys := by decide

theorem plainNames_scheduleKeys : PlainNames scheduleKeys := by decide

theorem plainNames_authorityKeys : PlainNames authorityKeys := by decide

theorem readAuthority_agrees (keeps : text.KeepsAscii) (settled : item.Settled text numbers)
    : readAuthority item = .ok authority ↔
      (PythonValue.record authority.fields).Agrees text item ∧ authority.validate = .ok () := by
  rw [readAuthority_ok, ← and_assoc]
  refine Iff.trans (and_congr_left' (flat_found_iff keeps plainNames_authorityKeys rfl ?_ settled))
    ?_
  · simp [ScheduledInputAuthority.fields, PythonValue.leaf]
  · refine ⟨fun ⟨⟨agrees, _⟩, valid⟩ => ⟨agrees, valid⟩,
      fun ⟨agrees, valid⟩ => ⟨⟨agrees, ?_⟩, valid⟩⟩
    have checks := valid
    simp only [ScheduledInputAuthority.validate, bind_ok] at checks
    obtain ⟨_, workflow, _, schemaId, _, version, _, schemaHash, _, digest, definition⟩ := checks
    simp only [ScheduledInputAuthority.fields, List.forall_mem_cons, List.not_mem_nil,
      false_implies, implies_true, and_true]
    exact ⟨(requireId_plain workflow).1.fixed keeps, (requireDigest_plain definition).1.fixed keeps,
      (requireId_plain schemaId).1.fixed keeps, (requireSchemaHash_plain schemaHash).1.fixed keeps,
      (requireId_plain version).1.fixed keeps, (requireDigest_plain digest).1.fixed keeps⟩

theorem readConnector_agrees (keeps : text.KeepsAscii) (settled : item.Settled text numbers)
    : readConnector item = .ok binding ↔
      (PythonValue.record binding.fields).Agrees text item ∧ binding.validate = .ok () := by
  rw [readConnector_ok, ← and_assoc]
  refine Iff.trans (and_congr_left' (flat_found_iff keeps plainNames_connectorKeys rfl ?_ settled))
    ?_
  · simp [InstanceConnectorBinding.fields, PythonValue.leaf]
  · refine ⟨fun ⟨⟨agrees, _⟩, valid⟩ => ⟨agrees, valid⟩,
      fun ⟨agrees, valid⟩ => ⟨⟨agrees, ?_⟩, valid⟩⟩
    have checks := valid
    simp only [InstanceConnectorBinding.validate, bind_ok] at checks
    obtain ⟨_, family, bindingId⟩ := checks
    simp only [InstanceConnectorBinding.fields, List.forall_mem_cons, List.not_mem_nil,
      false_implies, implies_true, and_true]
    exact ⟨(requireConnectorFamily_plain family).1.fixed keeps,
      (requireConnectorBindingId_plain bindingId).1.fixed keeps, rfl⟩

/-- The expressions of a configuration are in composed form. -/
def CronsComposed (text : TextSupport) (configuration : InstanceConfiguration) : Prop :=
  (∀ binding ∈ configuration.triggerBindings, ∀ cron ∈ binding.cron, text.nfc cron = cron) ∧
    ∀ schedule ∈ configuration.schedule, text.nfc schedule.cron = schedule.cron

/-- The names of time zones are plain. -/
def PlainZones (zones : ZoneSupport) : Prop :=
  ∀ zone, zones.knownTimezone zone = true → PlainText zone

theorem requireIanaTimezone_plain (plain : PlainZones zones)
    (known : requireIanaTimezone zones zone fieldName = .ok ()) :
      PlainText zone ∧ zone.toList.length ≤ 100 := by
  simp only [requireIanaTimezone, requireText, bind_ok, require_ok] at known
  obtain ⟨_, ⟨_, _, bounded⟩, listed⟩ := known
  exact ⟨plain zone listed, bounded⟩

theorem kind_plain (kind : TriggerKind) : PlainText kind.value := by
  cases kind <;> exact plain_of_all (by decide)

theorem policy_plain (policy : MisfirePolicy) : PlainText policy.value := by
  cases policy <;> exact plain_of_all (by decide)

theorem optional_fixed {α : Type} {write : α → PythonValue φ} {value : Option α}
    (fixed : ∀ present ∈ value, (write present).nfcAll text = write present) :
    (PythonValue.optional write value).nfcAll text = .optional write value := by
  cases value with
  | none => rfl
  | some present => exact fixed present rfl

theorem optional_leaf {α : Type} {write : α → PythonValue φ} {value : Option α}
    (leaf : ∀ present, (write present).leaf = true) :
      (PythonValue.optional write value).leaf = true := by
  cases value with
  | none => rfl
  | some present => exact leaf present

theorem readTrigger_agrees (keeps : codec.text.KeepsAscii)
    (zones : PlainZones codec.support.toZoneSupport)
    (settled : item.Settled codec.text numbers) {binding : InstanceTriggerBinding} :
    codec.readTrigger item = .ok binding ↔
      (PythonValue.record binding.fields).Agrees codec.text item ∧
      (∀ cron ∈ binding.cron, codec.text.nfc cron = cron) ∧
        binding.validate codec.support = .ok () := by
  rw [readTrigger_ok, ← and_assoc]
  refine Iff.trans (and_congr_left' (flat_found_iff keeps plainNames_triggerKeys rfl ?_ settled)) ?_
  · simp only [InstanceTriggerBinding.fields, List.forall_mem_cons, List.not_mem_nil,
      false_implies, implies_true, and_true]
    exact ⟨rfl, rfl, optional_leaf fun _ => rfl, optional_leaf fun _ => rfl,
      optional_leaf fun _ => rfl, optional_leaf fun _ => rfl, optional_leaf fun _ => rfl⟩
  · rw [and_assoc]
    refine and_congr_right fun _ => and_congr_left fun valid =>
      ⟨fun fixed => ?_, fun composed => ?_⟩
    · intro cron supplied
      have found := fixed ("cron", .optional .str binding.cron)
        (by simp [InstanceTriggerBinding.fields])
      rw [Option.mem_def.mp supplied] at found
      simpa [PythonValue.optional, PythonValue.nfcAll] using found
    · have checks := valid
      simp only [InstanceTriggerBinding.validate, bind_ok, require_ok] at checks
      obtain ⟨_, source, _, _, _, zone, _⟩ := checks
      simp only [InstanceTriggerBinding.fields, List.forall_mem_cons, List.not_mem_nil,
        false_implies, implies_true, and_true]
      refine ⟨(kind_plain _).fixed keeps, rfl, ?_, ?_, ?_, ?_, ?_⟩
      · exact optional_fixed fun value supplied =>
          (eventSourceText_plain (source value supplied)).1.fixed keeps
      · exact optional_fixed fun value supplied =>
          by rw [PythonValue.nfcAll, composed value supplied]
      · exact optional_fixed fun value supplied =>
          (requireIanaTimezone_plain zones (requireOptional_ok.mp zone value supplied)).1.fixed
            keeps
      · exact optional_fixed fun policy _ => (policy_plain policy).fixed keeps
      · exact optional_fixed fun _ _ => rfl

theorem readSchedule_agrees (keeps : codec.text.KeepsAscii)
    (zones : PlainZones codec.support.toZoneSupport) (settled : item.Settled codec.text numbers) :
    codec.readSchedule item = .ok schedule ↔
      (PythonValue.record schedule.fields).Agrees codec.text item ∧
      codec.text.nfc schedule.cron = schedule.cron ∧ schedule.validate codec.support = .ok () := by
  rw [readSchedule_ok, ← and_assoc]
  refine Iff.trans (and_congr_left' (flat_found_iff keeps plainNames_scheduleKeys rfl ?_ settled))
    ?_
  · simp [InstanceSchedule.fields, PythonValue.leaf]
  · rw [and_assoc]
    refine and_congr_right fun _ => and_congr_left fun valid =>
      ⟨fun fixed => ?_, fun composed => ?_⟩
    · have found := fixed ("cron", .str schedule.cron) (by simp [InstanceSchedule.fields])
      simpa [PythonValue.nfcAll] using found
    · have checks := valid
      simp only [InstanceSchedule.validate, bind_ok, require_ok] at checks
      obtain ⟨_, _, _, zone, _⟩ := checks
      simp only [InstanceSchedule.fields, List.forall_mem_cons, List.not_mem_nil,
        false_implies, implies_true, and_true]
      exact ⟨by rw [PythonValue.nfcAll, composed],
        (requireIanaTimezone_plain zones zone).1.fixed keeps, (policy_plain _).fixed keeps, rfl⟩

end

end MarketingAgents
