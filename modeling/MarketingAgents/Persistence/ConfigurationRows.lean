import MarketingAgents.Persistence.ConfigurationTexts

namespace MarketingAgents

open Library
open Library.JsonText

/-! # Configuration rows

A row is read as the configuration whose material agrees with the values that
its texts hold.
-/

section

variable {φ : Type}

/-- The material of two configurations agrees part by part. -/
structure ConfigurationMaterial.Matches (text : TextSupport)
    (first second : ConfigurationMaterial φ) : Prop where
  instanceId : first.instanceId = second.instanceId
  enabled : first.enabled = second.enabled
  variantLabel : first.variantLabel.map text.nfc = second.variantLabel.map text.nfc
  triggerBindings : first.triggerBindings.Agrees text second.triggerBindings
  connectorBindings : first.connectorBindings.Agrees text second.connectorBindings
  schedule : first.schedule.Agrees text second.schedule
  configurationRevision : first.configurationRevision = second.configurationRevision
  scheduledInput : Option.Rel (PythonValue.Agrees text) first.scheduledInput second.scheduledInput

/-- What a row holds: settled values, each with a text. -/
structure ConfigurationMaterial.Stored (codec : ConfigurationCodec φ) (row : StoredConfiguration)
    (material : ConfigurationMaterial φ) : Prop where
  instanceId : material.instanceId = row.instanceId
  enabled : material.enabled = row.enabled
  variantLabel : material.variantLabel = row.variantLabel
  triggersSettled : material.triggerBindings.Settled codec.text codec.numbers
  triggers : codec.IsText material.triggerBindings row.triggerBindingsJson
  connectorsSettled : material.connectorBindings.Settled codec.text codec.numbers
  connectors : codec.IsText material.connectorBindings row.connectorBindingsJson
  scheduleSettled : material.schedule.Settled codec.text codec.numbers
  schedule : codec.IsText material.schedule row.scheduleJson
  configurationRevision : material.configurationRevision = row.version
  scheduledInput : Option.Rel (fun value raw => value.Settled codec.text codec.numbers ∧
    codec.IsText value raw) material.scheduledInput row.scheduledInputJson

/-- A configuration as its constructors accept it. -/
structure InstanceConfiguration.Valid (codec : ConfigurationCodec φ)
    (configuration : InstanceConfiguration) : Prop where
  built : configuration.build codec.support = .ok configuration
  triggers : ∀ binding ∈ configuration.triggerBindings, binding.validate codec.support = .ok ()
  connectors : ∀ entry ∈ configuration.connectorBindings, entry.2.validate = .ok ()
  distinct : (configuration.connectorBindings.map Prod.fst).Nodup
  schedule : ∀ schedule ∈ configuration.schedule, schedule.validate codec.support = .ok ()
  scheduledInput : ∀ snapshot ∈ configuration.scheduledInput, snapshot.validate = .ok () ∧
    ∃ frozen, codec.freezePayload frozen = .ok snapshot.admittedPayload

/-- The scheduled input, if any, carries its authority. -/
def InstanceConfiguration.Bound (configuration : InstanceConfiguration) : Prop :=
  ∀ snapshot ∈ configuration.scheduledInput, snapshot.authority.isSome

end

section

variable {φ : Type} {codec : ConfigurationCodec φ} {row : StoredConfiguration}
  {configuration : InstanceConfiguration} {material first second : ConfigurationMaterial φ}

def materialKeys : List String :=
  ["instance_id", "enabled", "variant_label", "trigger_bindings", "connector_bindings", "schedule",
    "configuration_revision"]

theorem plainNames_material (material : ConfigurationMaterial φ) :
    PlainNames (material.fields.map Prod.fst) := by
  have all : PlainNames (materialKeys ++ ["scheduled_input"]) := by decide
  obtain ⟨_, _, _, _, _, _, _, scheduledInput⟩ := material
  cases scheduledInput with
  | some => exact all
  | none =>
      exact ⟨fun name listed => all.1 name (List.mem_append_left _ listed), all.2.of_append_left⟩

theorem ConfigurationMaterial.Matches.agrees (keeps : codec.text.KeepsAscii)
    (same : first.Matches codec.text second) :
    (PythonValue.record first.fields).Agrees codec.text (.record second.fields) := by
  have named : first.fields.map Prod.fst = second.fields.map Prod.fst := by
    obtain ⟨_, _, _, _, _, _, _, scheduled⟩ := first
    obtain ⟨_, _, _, _, _, _, _, other⟩ := second
    have presence : Option.Rel (PythonValue.Agrees codec.text) scheduled other :=
      same.scheduledInput
    cases presence <;> rfl
  rw [record_agrees keeps (plainNames_material second) named rfl]
  have identity : (PythonValue.str first.instanceId : PythonValue φ).Agrees codec.text
    (.str second.instanceId) :=
    str_agrees.mpr (congrArg codec.text.nfc same.instanceId)
  have enabled : (PythonValue.bool first.enabled : PythonValue φ).Agrees codec.text
    (.bool second.enabled) :=
    bool_agrees.mpr same.enabled
  have label : (PythonValue.optional .str first.variantLabel : PythonValue φ).Agrees codec.text
      (.optional .str second.variantLabel) := optional_str_agrees.mpr same.variantLabel
  have revision : (PythonValue.int first.configurationRevision : PythonValue φ).Agrees codec.text
      (.int second.configurationRevision) :=
        int_agrees.mpr (congrArg Int.ofNat same.configurationRevision)
  obtain ⟨_, _, _, _, _, _, _, scheduled⟩ := first
  obtain ⟨_, _, _, _, _, _, _, other⟩ := second
  have presence : Option.Rel (PythonValue.Agrees codec.text) scheduled other := same.scheduledInput
  have last : List.Forall₂ (fun left right : String × PythonValue φ =>
    left.2.Agrees codec.text right.2)
      (scheduled.toList.map fun snapshot => ("scheduled_input", snapshot))
      (other.toList.map fun snapshot => ("scheduled_input", snapshot)) := by
    cases presence with
    | some agrees => exact .cons agrees .nil
    | none => exact .nil
  exact .cons identity (.cons enabled
    (.cons label (.cons same.triggerBindings (.cons same.connectorBindings
    (.cons same.schedule (.cons revision last))))))

theorem integrityDigest_ok : codec.integrityDigest material = .ok digest ↔
    ∃ bytes, canonicalJsonBytes codec.text codec.numbers (.record material.fields) = .ok bytes ∧
      codec.sha256 (configurationIntegrityDomain ++ bytes) = digest := by
  rw [ConfigurationCodec.integrityDigest, map_eq_pure_bind]
  simp only [HashSupport.preimage, ConfigurationCodec.hashing, bind_ok, pure_ok]
  constructor
  · rintro ⟨_, ⟨bytes, written, rfl⟩, rfl⟩
    exact ⟨bytes, written, rfl⟩
  · rintro ⟨bytes, written, rfl⟩
    exact ⟨_, ⟨bytes, written, rfl⟩, rfl⟩

/-- The numbers that are written as decimal texts. -/
def ShortNumber (numbers : NumberSupport φ) (value : Nat) : Prop :=
  (Nat.toDigits 10 value).length ≤ numbers.maxStrDigits

theorem ConfigurationMaterial.writes (keeps : codec.text.KeepsAscii)
    (short : ShortNumber codec.numbers material.configurationRevision)
    (triggers : ∃ limit, material.triggerBindings.Writes codec.text codec.numbers limit)
    (connectors : ∃ limit, material.connectorBindings.Writes codec.text codec.numbers limit)
    (schedule : ∃ limit, material.schedule.Writes codec.text codec.numbers limit)
    (scheduled : ∀ snapshot ∈ material.scheduledInput, ∃ limit,
      snapshot.Writes codec.text codec.numbers limit) :
    ∃ limit, (PythonValue.record material.fields).Writes codec.text codec.numbers limit := by
  refine exists_writes_record keeps (plainNames_material material) ?_
  simp only [ConfigurationMaterial.fields, List.cons_append, List.nil_append, List.forall_mem_cons]
  refine ⟨⟨_, writes_str _⟩, ⟨_, writes_bool _⟩, ?_, triggers, connectors, schedule,
    ⟨_, writes_nat short⟩, ?_⟩
  · cases material.variantLabel with
    | none => exact ⟨_, writes_null⟩
    | some label => exact ⟨_, writes_str label⟩
  · rw [List.forall_mem_map]
    exact fun snapshot supplied => scheduled snapshot (Option.mem_toList.mp supplied)

theorem ConfigurationMaterial.Matches.digest (keeps : codec.text.KeepsAscii)
    (same : first.Matches codec.text second)
    (firstWrites : ∃ limit, (PythonValue.record first.fields).Writes codec.text codec.numbers limit)
    (secondWrites : ∃ limit, (PythonValue.record second.fields).Writes codec.text
      codec.numbers limit) :
    ∃ digest, codec.integrityDigest first = .ok digest ∧
      codec.integrityDigest second = .ok digest := by
  obtain ⟨_, firstWrites⟩ := firstWrites
  obtain ⟨_, secondWrites⟩ := secondWrites
  obtain ⟨bytes, written, _⟩ := firstWrites.bytes
  obtain ⟨others, rewritten, _⟩ := secondWrites.bytes
  rw [← (canonicalJsonBytes_eq_iff written rewritten).mpr (same.agrees keeps)] at rewritten
  exact ⟨_, integrityDigest_ok.mpr ⟨_, written, rfl⟩, integrityDigest_ok.mpr ⟨_, rewritten, rfl⟩⟩

theorem short_of_digest (keeps : codec.text.KeepsAscii)
    (digested : codec.integrityDigest material = .ok digest) :
    ShortNumber codec.numbers material.configurationRevision := by
  obtain ⟨_, written, _⟩ := integrityDigest_ok.mp digested
  obtain ⟨normal, document, normalized, documented, _⟩ := canonicalJsonBytes_ok.mp written
  obtain ⟨rfl, _⟩ := normalize_settled normalized
  rw [PythonValue.record, PythonValue.nfcAll,
    nfcMembers_record keeps _ (plainNames_material material).1] at documented
  obtain ⟨documents, _, members⟩ := documented
  have listed : (some "configuration_revision",
    PythonValue.int (material.configurationRevision : Int)) ∈
      material.fields.map fun field => (some field.1, field.2.nfcAll codec.text) :=
    List.mem_map.mpr ⟨("configuration_revision", .int material.configurationRevision),
      by simp [ConfigurationMaterial.fields], rfl⟩
  obtain ⟨_, one⟩ := mem_written members listed
  exact (document_written.mp one).2

theorem readOptionalSchedule_agrees {value : PythonValue φ} (keeps : codec.text.KeepsAscii)
    (zones : PlainZones codec.support.toZoneSupport)
    (settled : value.Settled codec.text codec.numbers)
    : readOptional codec.readSchedule value = .ok schedule ↔
      (PythonValue.optional (fun schedule => .record schedule.fields) schedule).Agrees
        codec.text value ∧
      ∀ present ∈ schedule, codec.text.nfc present.cron = present.cron ∧
        present.validate codec.support = .ok () := by
  cases schedule with
  | none =>
      rw [PythonValue.optional, leaf_agrees_settled rfl settled]
      cases value with
      | null => simp [readOptional, PythonValue.nfcAll]
      | bool | int | float | str | mapping | sequence | other =>
          rw [readOptional.eq_2 _ _ (by simp)]
          generalize codec.readSchedule _ = outcome
          cases outcome <;> simp [PythonValue.nfcAll]
  | some present =>
      have read : codec.readSchedule value = .ok present ↔ _ :=
        readSchedule_agrees keeps zones settled
      cases value with
      | null =>
          simp [readOptional, PythonValue.optional, PythonValue.Agrees, PythonValue.record,
            PythonValue.nfcAll,
          PythonValue.Same]
      | bool | int | float | str | mapping | sequence | other =>
          simp only [readOptional, map_eq_pure_bind, bind_ok, pure_ok, Option.some.injEq,
            exists_eq_right, read, PythonValue.optional, Option.mem_some_iff, forall_eq']

theorem connectors_perm {value : PythonValue φ} (keeps : codec.text.KeepsAscii)
    (settled : value.Settled codec.text codec.numbers)
    {entries others : List (String × InstanceConnectorBinding)}
    (plain : ∀ entry ∈ entries, PlainText entry.1) (distinct : (entries.map Prod.fst).Nodup)
    (perm : entries.Perm others) (agrees : (connectorsMaterial entries).Agrees codec.text value) :
    (connectorsMaterial others).Agrees codec.text value := by
  have otherPlain : ∀ entry ∈ others, PlainText entry.1 :=
    fun entry listed => plain entry (perm.symm.subset listed)
  have otherDistinct : (others.map Prod.fst).Nodup := (perm.map Prod.fst).nodup_iff.mp distinct
  rw [connectorsMaterial, record_agrees_settled keeps
    (plainNames_families plain distinct) settled] at agrees
  rw [connectorsMaterial, record_agrees_settled keeps
    (plainNames_families otherPlain otherDistinct) settled]
  obtain ⟨shaped, found⟩ := agrees
  have fields := perm.map fun entry =>
    (entry.1, (PythonValue.record entry.2.fields : PythonValue φ))
  refine ⟨?_, fun field listed => found field (fields.symm.subset listed)⟩
  cases value with
  | null | bool | int | float | str | sequence | other => cases shaped
  | mapping members =>
      rw [hasExactly_mapping] at shaped ⊢
      have names := (fields.map Prod.fst).map some
      exact ⟨List.Subset.trans names.symm.subset shaped.1, List.Subset.trans shaped.2 names.subset⟩

theorem sortedBindings_perm (entries : List (String × InstanceConnectorBinding)) :
    (sortedBindings entries).Perm entries :=
  List.perm_insertionSort _ _

theorem scheduledMaterial_ok :
    codec.scheduledMaterial snapshot = .ok value ↔ snapshot.authority.isSome ∧
      ∃ payload, codec.payloadValue snapshot = .ok payload ∧
        PythonValue.record (snapshot.toMapping payload) = value := by
  simp only [ConfigurationCodec.scheduledMaterial, bind_ok, pure_ok, require_ok, exists_const]

/-- The material of a configuration but for its scheduled input. -/
def InstanceConfiguration.materialWith (configuration : InstanceConfiguration)
    (scheduledInput : Option (PythonValue φ)) : ConfigurationMaterial φ where
  instanceId := configuration.instanceId
  enabled := configuration.enabled
  variantLabel := configuration.variantLabel
  triggerBindings := triggersMaterial configuration.triggerBindings
  connectorBindings := connectorsMaterial (sortedBindings configuration.connectorBindings)
  schedule := .optional (fun schedule => .record schedule.fields) configuration.schedule
  configurationRevision := configuration.configurationRevision
  scheduledInput

theorem configurationMaterial_ok : codec.configurationMaterial configuration = .ok material ↔
    ∃ scheduledInput, Option.Rel (fun snapshot value =>
      codec.scheduledMaterial snapshot = .ok value)
      configuration.scheduledInput scheduledInput ∧
        configuration.materialWith scheduledInput = material := by
  simp only [ConfigurationCodec.configurationMaterial, bind_ok, pure_ok, optional_mapM_ok,
    InstanceConfiguration.materialWith]

theorem scheduled_matches (keeps : codec.text.KeepsAscii) {value : Option (PythonValue φ)}
    (settled : ∀ present ∈ value, present.Settled codec.text codec.numbers)
    (read : Option.Rel (fun present snapshot => codec.readScheduledInput present = .ok snapshot)
      value scheduledInput) :
    ∃ written, Option.Rel (fun snapshot material => codec.scheduledMaterial snapshot = .ok material)
      scheduledInput written ∧
      Option.Rel (PythonValue.Agrees codec.text) written value ∧
      ∀ snapshot ∈ scheduledInput, snapshot.authority.isSome ∧ snapshot.validate = .ok () ∧
        ∃ frozen, codec.freezePayload frozen = .ok snapshot.admittedPayload := by
  cases read with
  | none => exact ⟨none, .none, .none, nofun⟩
  | some read =>
      obtain ⟨payload, loaded, bound, agrees, valid, frozen⟩ :=
        readScheduledInput_agrees keeps (settled _ rfl) read
      refine ⟨_, .some (scheduledMaterial_ok.mpr ⟨bound, payload, loaded, rfl⟩), .some agrees, ?_⟩
      rintro _ ⟨⟩
      exact ⟨bound, valid, frozen⟩

theorem families_plain (accepted : configuration.build support = .ok built) :
    ∀ entry ∈ configuration.connectorBindings, PlainText entry.1 ∧ entry.1.toList.length ≤ 100 := by
  simp only [InstanceConfiguration.build, bind_ok, requireEach_ok,
    InstanceConfiguration.validateConnector] at accepted
  obtain ⟨_, _, _, _, _, _, _, _, _, _, _, each, _⟩ := accepted
  intro entry listed
  obtain ⟨_, family, _⟩ := each entry listed
  exact requireConnectorFamily_plain family

/-- What is read of a row is a valid configuration, whose material agrees with what the row
holds. -/
theorem readMaterial_matches (keeps : codec.text.KeepsAscii)
    (zones : PlainZones codec.support.toZoneSupport)
    (stored : material.Stored codec row) (read : codec.readMaterial material = .ok configuration) :
    ∃ written, codec.configurationMaterial configuration = .ok written ∧
    written.Matches codec.text material ∧
      configuration.Valid codec ∧ configuration.Bound ∧ CronsComposed codec.text configuration ∧
      configuration.variantLabel = row.variantLabel.map codec.text.nfc := by
  simp only [ConfigurationCodec.readMaterial, bind_ok, optional_mapM_ok] at read
  obtain ⟨triggers, triggersRead, entries, entriesRead, schedule, scheduleRead, scheduled,
    scheduledRead, built⟩ := read
  have plain := families_plain built
  obtain ⟨triggersAgree, triggersValid⟩ :=
    (readTriggers_agrees keeps zones stored.triggersSettled).mp triggersRead
  obtain ⟨entriesAgree, distinct, entriesValid⟩ :=
    readConnectors_agrees keeps stored.connectorsSettled entriesRead fun entry listed =>
      (plain entry listed).1
  obtain ⟨scheduleAgrees, scheduleValid⟩ :=
    (readOptionalSchedule_agrees keeps zones stored.scheduleSettled).mp scheduleRead
  have scheduledSettled : ∀ present ∈ material.scheduledInput,
      present.Settled codec.text codec.numbers := by
    intro present supplied
    have held := stored.scheduledInput
    rw [Option.mem_def.mp supplied] at held
    generalize row.scheduledInputJson = raw at held
    cases held with
    | some holds => exact holds.1
  obtain ⟨value, scheduledWritten, scheduledAgrees, scheduledValid⟩ :=
    scheduled_matches keeps scheduledSettled scheduledRead
  have again := InstanceConfiguration.build_build built
  have label := stored.variantLabel
  rw [InstanceConfiguration.build_shape built] at again ⊢
  have sorted := sortedBindings_perm entries
  refine ⟨_, configurationMaterial_ok.mpr ⟨value, scheduledWritten, rfl⟩, ?_, ?_, ?_, ?_, ?_⟩
  · refine ⟨rfl, rfl, ?_, triggersAgree, ?_, scheduleAgrees, rfl, scheduledAgrees⟩
    · change (material.variantLabel.map codec.text.nfc).map codec.text.nfc =
        material.variantLabel.map codec.text.nfc
      cases material.variantLabel <;> simp [codec.text.nfc_idempotent]
    · change (connectorsMaterial (sortedBindings (sortedBindings entries))).Agrees _ _
      rw [sortedBindings_sorted]
      exact connectors_perm keeps stored.connectorsSettled
        (fun entry listed => (plain entry listed).1) distinct sorted.symm entriesAgree
  · refine ⟨again, fun binding listed => (triggersValid binding listed).2,
      fun entry listed => entriesValid entry (sorted.subset listed),
        (sorted.map Prod.fst).nodup_iff.mpr distinct,
      fun present supplied => (scheduleValid present supplied).2, fun snapshot supplied => ?_⟩
    exact (scheduledValid snapshot supplied).2
  · exact fun snapshot supplied => (scheduledValid snapshot supplied).1
  · exact ⟨fun binding listed => (triggersValid binding listed).1,
      fun present supplied => (scheduleValid present supplied).1⟩
  · rw [← label]
    rfl

theorem sortedBindings_eq {bindings others : List (String × InstanceConnectorBinding)}
    (distinct : (bindings.map Prod.fst).Nodup) (perm : bindings.Perm others) :
    sortedBindings bindings = sortedBindings others := by
  have : Std.Total (fun left right : String × InstanceConnectorBinding => left.1 ≤ right.1) :=
    ⟨fun left right => le_total left.1 right.1⟩
  have : IsTrans (String × InstanceConnectorBinding) (fun left right => left.1 ≤ right.1) :=
    ⟨fun _ _ _ => le_trans⟩
  refine insertionSort_eq_of_perm (fun first inFirst second inSecond before after => ?_) perm
  exact List.inj_on_of_nodup_map distinct inFirst inSecond (le_antisymm before after)

theorem build_reordered {entries : List (String × InstanceConnectorBinding)}
    (built : configuration.build support = .ok configuration)
    (distinct : (configuration.connectorBindings.map Prod.fst).Nodup)
    (perm : entries.Perm configuration.connectorBindings) :
    ({ configuration with connectorBindings := entries } : InstanceConfiguration).build support =
      .ok configuration := by
  have sorted := sortedBindings_eq distinct perm.symm
  have shape := InstanceConfiguration.build_shape built
  simp only [InstanceConfiguration.build, bind_ok, pure_ok, require_ok, requireEach_ok] at built ⊢
  obtain ⟨_, named, _, labelled, _, triggers, _, kinds, _, few, _, each, _, revision, _,
    schedule, _⟩ := built
  refine ⟨(), named, (), labelled, (), triggers, (), kinds, (), perm.length_eq ▸ few, (), ?_,
    (), revision, (), schedule, ?_⟩
  · exact fun entry listed => each entry (perm.subset listed)
  · rw [← sorted]
    exact shape.symm

/-- Material that agrees with a valid configuration is read as the configuration. -/
theorem readMaterial_ok (keeps : codec.text.KeepsAscii)
    (zones : PlainZones codec.support.toZoneSupport) (stored : material.Stored codec row)
    (valid : configuration.Valid codec) (bound : configuration.Bound)
    (composed : CronsComposed codec.text configuration)
    (label : row.variantLabel = configuration.variantLabel)
    (accepted : codec.configurationMaterial configuration = .ok written)
    (same : written.Matches codec.text material) :
    codec.readMaterial material = .ok configuration := by
  obtain ⟨value, scheduledWritten, rfl⟩ := configurationMaterial_ok.mp accepted
  have plain := families_plain valid.built
  have sorted := sortedBindings_perm configuration.connectorBindings
  have triggers := (readTriggers_agrees keeps zones stored.triggersSettled).mpr
    ⟨same.triggerBindings, fun binding listed =>
      ⟨composed.1 binding listed, valid.triggers binding listed⟩⟩
  have schedule := (readOptionalSchedule_agrees keeps zones stored.scheduleSettled).mpr
    ⟨same.schedule, fun present supplied =>
      ⟨composed.2 present supplied, valid.schedule present supplied⟩⟩
  obtain ⟨entries, entriesRead, perm⟩ := connectors_read keeps stored.connectorsSettled
    (fun entry listed => ⟨(plain entry (sorted.subset listed)).1,
      valid.connectors entry (sorted.subset listed)⟩)
    ((sorted.map Prod.fst).nodup_iff.mpr valid.distinct) same.connectorBindings
  have scheduled : Option.Rel (fun present snapshot =>
    codec.readScheduledInput present = .ok snapshot)
      material.scheduledInput configuration.scheduledInput := by
    have agrees : Option.Rel (PythonValue.Agrees codec.text) value material.scheduledInput :=
      same.scheduledInput
    have held := stored.scheduledInput
    have inputs := valid.scheduledInput
    have carried := bound
    rw [InstanceConfiguration.Bound] at carried
    clear accepted
    generalize configuration.scheduledInput = scheduledInput at scheduledWritten inputs carried ⊢
    generalize material.scheduledInput = present at agrees held ⊢
    generalize row.scheduledInputJson = raw at held
    cases scheduledWritten with
    | none => cases agrees; exact .none
    | some authorized =>
        cases agrees with
        | some agrees =>
            cases held with
            | some held =>
                obtain ⟨present, payload, loaded, rfl⟩ := scheduledMaterial_ok.mp authorized
                obtain ⟨checked, frozen, canonical⟩ := inputs _ rfl
                obtain ⟨_, document⟩ := held.2.written held.1
                exact .some (scheduledInput_read keeps held.1 document checked present canonical
                  loaded agrees)
  simp only [ConfigurationCodec.readMaterial, bind_ok, optional_mapM_ok]
  refine ⟨_, triggers, entries, entriesRead, _, schedule, _, scheduled, ?_⟩
  have built := build_reordered valid.built valid.distinct (perm.trans sorted)
  have identity : material.instanceId = configuration.instanceId := same.instanceId.symm
  have enabled : material.enabled = configuration.enabled := same.enabled.symm
  have revision : material.configurationRevision = configuration.configurationRevision :=
    same.configurationRevision.symm
  rw [identity, enabled, revision, stored.variantLabel, label]
  exact built

end

end MarketingAgents
