import MarketingAgents.Persistence.ConfigurationRows

namespace MarketingAgents

open Library
open Library.JsonText

/-! # Writing and reading rows

A row is what the writer makes of the configuration that it is read as, but for
the form of its label.
-/

section

variable {φ : Type} {codec : ConfigurationCodec φ} {row : StoredConfiguration}
  {configuration : InstanceConfiguration} {material : ConfigurationMaterial φ}

/-- The texts that a row keeps of some material. -/
structure ConfigurationMaterial.Texts (codec : ConfigurationCodec φ) (row : StoredConfiguration)
    (material : ConfigurationMaterial φ) : Prop where
  triggers : codec.IsText material.triggerBindings row.triggerBindingsJson
  connectors : codec.IsText material.connectorBindings row.connectorBindingsJson
  schedule : codec.IsText material.schedule row.scheduleJson
  scheduledInput : Option.Rel codec.IsText material.scheduledInput row.scheduledInputJson

/-- The parts of some material fit their columns. -/
structure ConfigurationMaterial.Fits (codec : ConfigurationCodec φ)
    (material : ConfigurationMaterial φ) : Prop where
  triggers : material.triggerBindings.Writes codec.text codec.numbers maxSnapshotBytes
  connectors : material.connectorBindings.Writes codec.text codec.numbers maxSnapshotBytes
  schedule : material.schedule.Writes codec.text codec.numbers maxSnapshotBytes
  scheduledInput : ∀ snapshot ∈ material.scheduledInput,
    snapshot.Writes codec.text codec.numbers maxSnapshotBytes

theorem few_connectors (accepted : configuration.build support = .ok built) :
    configuration.connectorBindings.length ≤ 16 ∧
      (configuration.triggerBindings.map (·.kind)).Nodup := by
  simp only [InstanceConfiguration.build, bind_ok, require_ok] at accepted
  obtain ⟨_, _, _, _, _, _, _, kinds, _, few, _⟩ := accepted
  exact ⟨few, kinds⟩

theorem fits_of_valid (keeps : codec.text.KeepsAscii)
    (zones : PlainZones codec.support.toZoneSupport)
    (digits : 640 ≤ codec.numbers.maxStrDigits) (valid : configuration.Valid codec)
    (composed : CronsComposed codec.text configuration)
    (accepted : codec.configurationMaterial configuration = .ok material) :
      material.Fits codec := by
  obtain ⟨value, scheduled, rfl⟩ := configurationMaterial_ok.mp accepted
  have plain := families_plain valid.built
  obtain ⟨few, kinds⟩ := few_connectors valid.built
  have sorted := sortedBindings_perm configuration.connectorBindings
  refine ⟨?_, ?_, ?_, ?_⟩
  · refine (writes_triggers keeps zones digits (fun binding listed => ?_) kinds).mono (by decide)
    exact ⟨composed.1 binding listed, valid.triggers binding listed⟩
  · refine (writes_connectors keeps (fun entry listed => ?_)
      ((sorted.map Prod.fst).nodup_iff.mpr valid.distinct)
      (sorted.length_eq ▸ few)).mono (by decide)
    exact ⟨plain entry (sorted.subset listed), valid.connectors entry (sorted.subset listed)⟩
  · refine writes_optional (by decide) fun schedule supplied => ?_
    exact (writes_schedule keeps zones digits (composed.2 schedule supplied)
      (valid.schedule schedule supplied)).mono (by decide)
  · intro snapshot supplied
    have inputs := valid.scheduledInput
    change value = some snapshot at supplied
    subst supplied
    clear accepted
    generalize configuration.scheduledInput = scheduledInput at scheduled inputs
    cases scheduled with
    | some authorized =>
        obtain ⟨_, payload, loaded, rfl⟩ := scheduledMaterial_ok.mp authorized
        obtain ⟨checked, frozen, canonical⟩ := inputs _ rfl
        exact (writes_scheduled keeps checked canonical loaded).mono (by decide)

theorem toRow_ok : codec.toRow configuration = .ok row ↔ ∃ material,
    codec.configurationMaterial configuration = .ok material ∧ material.Texts codec row ∧
    codec.integrityDigest material = .ok row.integrityDigest ∧
    row.instanceId = configuration.instanceId ∧
    row.enabled = configuration.enabled ∧ row.variantLabel = configuration.variantLabel ∧
    row.version = configuration.configurationRevision := by
  simp only [ConfigurationCodec.toRow, bind_ok, pure_ok, ConfigurationCodec.canonicalText_ok,
    optional_mapM_ok]
  constructor
  · rintro ⟨material, accepted, _, triggers, _, connectors, _, schedule, _, scheduled,
      _, digest, rfl⟩
    exact ⟨material, accepted, ⟨triggers, connectors, schedule, scheduled⟩, digest, rfl,
      rfl, rfl, rfl⟩
  · rintro ⟨material, accepted, ⟨triggers, connectors, schedule, scheduled⟩, digest, identity,
      enabled, label, version⟩
    refine ⟨material, accepted, _, triggers, _, connectors, _, schedule, _, scheduled,
      _, digest, ?_⟩
    rw [← identity, ← enabled, ← label, ← version]

theorem rowMaterial_stored (read : codec.rowMaterial row = .ok material) :
    material.Stored codec row := by
  simp only [ConfigurationCodec.rowMaterial, bind_ok, pure_ok, optional_mapM_ok] at read
  obtain ⟨_, triggers, _, connectors, _, schedule, scheduled, scheduledRead, rfl⟩ := read
  obtain ⟨triggersSettled, triggersText⟩ := ConfigurationCodec.parsed_settled triggers
  obtain ⟨connectorsSettled, connectorsText⟩ := ConfigurationCodec.parsed_settled connectors
  obtain ⟨scheduleSettled, scheduleText⟩ := ConfigurationCodec.parsed_settled schedule
  refine ⟨rfl, rfl, rfl, triggersSettled, triggersText, connectorsSettled, connectorsText,
    scheduleSettled, scheduleText, rfl, ?_⟩
  change Option.Rel _ scheduled row.scheduledInputJson
  generalize row.scheduledInputJson = raw at scheduledRead
  cases scheduledRead with
  | none => exact .none
  | some read => exact .some (ConfigurationCodec.parsed_settled read)

theorem ConfigurationMaterial.Texts.read {written : ConfigurationMaterial φ}
    (texts : written.Texts codec row)
    (identity : row.instanceId = written.instanceId) (enabled : row.enabled = written.enabled)
    (label : row.variantLabel.map codec.text.nfc = written.variantLabel.map codec.text.nfc)
    (version : row.version = written.configurationRevision) :
    ∃ material, codec.rowMaterial row = .ok material ∧ written.Matches codec.text material := by
  obtain ⟨triggers, triggersRead, _, _, triggersAgree⟩ := texts.triggers.parsed
  obtain ⟨connectors, connectorsRead, _, _, connectorsAgree⟩ := texts.connectors.parsed
  obtain ⟨schedule, scheduleRead, _, _, scheduleAgrees⟩ := texts.schedule.parsed
  have scheduled : ∃ value, Option.Rel (fun raw read =>
    codec.parseCanonicalText raw "scheduled input" = .ok read)
      row.scheduledInputJson value ∧
          Option.Rel (PythonValue.Agrees codec.text) written.scheduledInput value := by
    have held := texts.scheduledInput
    generalize row.scheduledInputJson = raw at held
    generalize written.scheduledInput = value at held
    cases held with
    | none => exact ⟨none, .none, .none⟩
    | some text =>
        obtain ⟨read, parsed, _, _, agrees⟩ := text.parsed
        exact ⟨some read, .some parsed, .some agrees⟩
  obtain ⟨value, scheduledRead, scheduledAgrees⟩ := scheduled
  refine ⟨⟨row.instanceId, row.enabled, row.variantLabel, triggers, connectors, schedule,
    row.version, value⟩, ?_, ?_⟩
  · simp only [ConfigurationCodec.rowMaterial, bind_ok, pure_ok, optional_mapM_ok]
    exact ⟨_, triggersRead, _, connectorsRead, _, scheduleRead, _, scheduledRead, rfl⟩
  · exact ⟨identity.symm, enabled.symm, label.symm, triggersAgree, connectorsAgree,
      scheduleAgrees, version.symm, scheduledAgrees⟩

theorem toDomain_ok : codec.toDomain row = .ok configuration ↔
    ∃ material, codec.rowMaterial row = .ok material ∧
    codec.integrityDigest material = .ok row.integrityDigest ∧
      codec.readMaterial material = .ok configuration := by
  simp only [ConfigurationCodec.toDomain, bind_ok, require_ok, orTampered_ok]
  constructor
  · rintro ⟨material, read, digest, observed, _, same, configured⟩
    exact ⟨material, read, same ▸ observed, configured⟩
  · rintro ⟨material, read, observed, configured⟩
    exact ⟨material, read, _, observed, (), rfl, configured⟩

theorem ConfigurationMaterial.Stored.texts (stored : material.Stored codec row) :
    material.Texts codec row := by
  refine ⟨stored.triggers, stored.connectors, stored.schedule, ?_⟩
  have held := stored.scheduledInput
  generalize row.scheduledInputJson = raw at held ⊢
  generalize material.scheduledInput = value at held ⊢
  cases held with
  | none => exact .none
  | some holds => exact .some holds.2

theorem ConfigurationMaterial.Texts.writes (keeps : codec.text.KeepsAscii)
    (texts : material.Texts codec row)
    (short : ShortNumber codec.numbers material.configurationRevision) :
    ∃ limit, (PythonValue.record material.fields).Writes codec.text codec.numbers limit := by
  refine material.writes keeps short ⟨_, writes_of_bytes texts.triggers.1⟩
    ⟨_, writes_of_bytes texts.connectors.1⟩
    ⟨_, writes_of_bytes texts.schedule.1⟩ fun snapshot supplied => ?_
  have held := texts.scheduledInput
  rw [Option.mem_def.mp supplied] at held
  generalize row.scheduledInputJson = raw at held
  cases held with
  | some text => exact ⟨_, writes_of_bytes text.1⟩

theorem ConfigurationMaterial.Matches.texts {written : ConfigurationMaterial φ}
    (same : written.Matches codec.text material) (texts : material.Texts codec row)
    (fits : written.Fits codec) :
    written.Texts codec row := by
  refine ⟨texts.triggers.of_agrees fits.triggers same.triggerBindings,
    texts.connectors.of_agrees fits.connectors same.connectorBindings,
    texts.schedule.of_agrees fits.schedule same.schedule, ?_⟩
  have held := texts.scheduledInput
  have agrees := same.scheduledInput
  have sized := fits.scheduledInput
  generalize row.scheduledInputJson = raw at held ⊢
  generalize written.scheduledInput = value at agrees sized ⊢
  generalize material.scheduledInput = present at agrees held
  cases agrees with
  | none => cases held; exact .none
  | some agrees =>
      cases held with
      | some text => exact .some (text.of_agrees (sized _ rfl) agrees)

theorem exists_texts (fits : material.Fits codec) : ∃ row :
    StoredConfiguration, material.Texts codec row := by
  obtain ⟨triggers, triggersText⟩ := ConfigurationCodec.exists_isText fits.triggers le_rfl
  obtain ⟨connectors, connectorsText⟩ := ConfigurationCodec.exists_isText fits.connectors le_rfl
  obtain ⟨schedule, scheduleText⟩ := ConfigurationCodec.exists_isText fits.schedule le_rfl
  have scheduled : ∃ raw, Option.Rel codec.IsText material.scheduledInput raw := by
    have sized := fits.scheduledInput
    generalize material.scheduledInput = value at sized ⊢
    cases value with
    | none => exact ⟨none, .none⟩
    | some snapshot =>
        obtain ⟨raw, text⟩ := ConfigurationCodec.exists_isText (sized snapshot rfl) le_rfl
        exact ⟨some raw, .some text⟩
  obtain ⟨raw, scheduledText⟩ := scheduled
  exact ⟨⟨"", true, none, triggers, connectors, schedule, raw, 0, ""⟩,
    ⟨triggersText, connectorsText, scheduleText, scheduledText⟩⟩

theorem toRow_of_read (keeps : codec.text.KeepsAscii)
    (zones : PlainZones codec.support.toZoneSupport)
    (digits : 640 ≤ codec.numbers.maxStrDigits) (read : codec.toDomain row = .ok configuration) :
    configuration.Valid codec ∧ configuration.Bound ∧ CronsComposed codec.text configuration ∧
      codec.toRow configuration = .ok { row with
        variantLabel := row.variantLabel.map codec.text.nfc } := by
  obtain ⟨material, held, observed, configured⟩ := toDomain_ok.mp read
  have stored := rowMaterial_stored held
  obtain ⟨written, accepted, same, valid, bound, composed, label⟩ :=
    readMaterial_matches keeps zones stored configured
  have fits := fits_of_valid keeps zones digits valid composed accepted
  have short := short_of_digest keeps observed
  have texts := same.texts stored.texts fits
  obtain ⟨digest, writtenDigest, heldDigest⟩ := same.digest keeps
    (texts.writes keeps (same.configurationRevision ▸ short)) (stored.texts.writes keeps short)
  obtain rfl : digest = row.integrityDigest := Except.ok.inj (heldDigest.symm.trans observed)
  have parts := accepted
  obtain ⟨_, _, rfl⟩ := configurationMaterial_ok.mp parts
  refine ⟨valid, bound, composed,
    toRow_ok.mpr ⟨_, accepted, ⟨texts.triggers, texts.connectors, texts.schedule,
    texts.scheduledInput⟩, writtenDigest, ?_, ?_, label.symm, ?_⟩⟩
  · exact stored.instanceId.symm.trans same.instanceId.symm
  · exact stored.enabled.symm.trans same.enabled.symm
  · exact stored.configurationRevision.symm.trans same.configurationRevision.symm

theorem variantLabel_composed (valid : configuration.Valid codec) :
    configuration.variantLabel.map codec.text.nfc = configuration.variantLabel :=
  (congrArg InstanceConfiguration.variantLabel (InstanceConfiguration.build_shape valid.built)).symm

theorem toDomain_of_written (keeps : codec.text.KeepsAscii)
    (zones : PlainZones codec.support.toZoneSupport)
    (valid : configuration.Valid codec) (bound : configuration.Bound)
    (composed : CronsComposed codec.text configuration)
    (written : codec.toRow configuration = .ok row) : codec.toDomain row = .ok configuration := by
  obtain ⟨material, accepted, texts, observed, identity, enabled, label, version⟩ :=
    toRow_ok.mp written
  have short := short_of_digest keeps observed
  have parts := accepted
  obtain ⟨_, _, rfl⟩ := configurationMaterial_ok.mp parts
  obtain ⟨read, held, same⟩ := texts.read identity enabled (congrArg _ label) version
  have stored := rowMaterial_stored held
  obtain ⟨digest, writtenDigest, heldDigest⟩ := same.digest keeps (texts.writes keeps short)
    (stored.texts.writes keeps (same.configurationRevision ▸ short))
  rw [observed] at writtenDigest
  obtain rfl := Except.ok.inj writtenDigest
  exact toDomain_ok.mpr ⟨read, held, heldDigest,
    readMaterial_ok keeps zones stored valid bound composed label accepted same⟩

theorem exists_material (valid : configuration.Valid codec) (bound : configuration.Bound) :
    ∃ material, codec.configurationMaterial configuration = .ok material := by
  have inputs := valid.scheduledInput
  rw [InstanceConfiguration.Bound] at bound
  have scheduled : ∃ value, Option.Rel (fun snapshot value =>
    codec.scheduledMaterial snapshot = .ok value)
      configuration.scheduledInput value := by
    generalize configuration.scheduledInput = scheduledInput at inputs bound ⊢
    cases scheduledInput with
    | none => exact ⟨none, .none⟩
    | some snapshot =>
        obtain ⟨_, frozen, canonical⟩ := inputs snapshot rfl
        obtain ⟨members, ofJson, _⟩ := freezePayload_ok canonical
        exact ⟨_, .some (scheduledMaterial_ok.mpr
          ⟨bound snapshot rfl, _, requireSome_ok.mpr ofJson, rfl⟩)⟩
  obtain ⟨value, related⟩ := scheduled
  exact ⟨_, configurationMaterial_ok.mpr ⟨value, related, rfl⟩⟩

theorem row_roundTrip (keeps : codec.text.KeepsAscii)
    (zones : PlainZones codec.support.toZoneSupport)
    (digits : 640 ≤ codec.numbers.maxStrDigits) (valid : configuration.Valid codec)
    (bound : configuration.Bound) :
    (∃ row, codec.toRow configuration = .ok row ∧ codec.toDomain row = .ok configuration) ↔
      CronsComposed codec.text configuration ∧
        ShortNumber codec.numbers configuration.configurationRevision := by
  constructor
  · rintro ⟨row, written, read⟩
    obtain ⟨_, _, composed, _⟩ := toRow_of_read keeps zones digits read
    obtain ⟨material, accepted, _, observed, _⟩ := toRow_ok.mp written
    obtain ⟨_, _, rfl⟩ := configurationMaterial_ok.mp accepted
    exact ⟨composed, short_of_digest keeps observed⟩
  · rintro ⟨composed, short⟩
    obtain ⟨material, accepted⟩ := exists_material valid bound
    obtain ⟨kept, texts⟩ := exists_texts (fits_of_valid keeps zones digits valid composed accepted)
    have parts := accepted
    obtain ⟨_, _, rfl⟩ := configurationMaterial_ok.mp parts
    obtain ⟨_, writes⟩ := texts.writes keeps short
    obtain ⟨bytes, canonical, _⟩ := writes.bytes
    have written : codec.toRow configuration = .ok { kept with
        instanceId := configuration.instanceId
        enabled := configuration.enabled
        variantLabel := configuration.variantLabel
        version := configuration.configurationRevision
        integrityDigest := codec.sha256 (configurationIntegrityDomain ++ bytes.toByteArray) } :=
      toRow_ok.mpr ⟨_, accepted,
        ⟨texts.triggers, texts.connectors, texts.schedule, texts.scheduledInput⟩,
        integrityDigest_ok.mpr ⟨_, canonical, rfl⟩, rfl, rfl, rfl, rfl⟩
    exact ⟨_, written, toDomain_of_written keeps zones valid bound composed written⟩

/-- The label of a row is read in its composed form, which alone is digested. -/
theorem toDomain_relabelled (keeps : codec.text.KeepsAscii) {label : Option String}
    (same : label.map codec.text.nfc = row.variantLabel.map codec.text.nfc)
    (read : codec.toDomain row = .ok configuration) :
    codec.toDomain { row with variantLabel := label } = .ok configuration := by
  obtain ⟨material, held, observed, configured⟩ := toDomain_ok.mp read
  have stored := rowMaterial_stored held
  have short := short_of_digest keeps observed
  have relabelled : codec.rowMaterial { row with variantLabel := label } =
      .ok { material with variantLabel := label } := by
    simp only [ConfigurationCodec.rowMaterial, bind_ok, pure_ok] at held ⊢
    obtain ⟨triggers, triggersRead, connectors, connectorsRead, schedule, scheduleRead, scheduled,
      scheduledRead, rfl⟩ := held
    exact ⟨_, triggersRead, _, connectorsRead, _, scheduleRead, _, scheduledRead, rfl⟩
  have texts := stored.texts
  have scheduled : Option.Rel (PythonValue.Agrees codec.text) material.scheduledInput
      material.scheduledInput := by
    have held := texts.scheduledInput
    generalize row.scheduledInputJson = raw at held
    generalize material.scheduledInput = value at held ⊢
    cases held with
    | none => exact .none
    | some text => exact .some text.agrees_self
  have agrees : ({ material with variantLabel := label } : ConfigurationMaterial φ).Matches
      codec.text material := by
    refine ⟨rfl, rfl, ?_, texts.triggers.agrees_self, texts.connectors.agrees_self,
      texts.schedule.agrees_self, rfl, scheduled⟩
    rw [stored.variantLabel]
    exact same
  have relabelledTexts : ({ material with variantLabel := label } : ConfigurationMaterial φ).Texts
    codec row :=
    ⟨texts.triggers, texts.connectors, texts.schedule, texts.scheduledInput⟩
  obtain ⟨digest, relabelledDigest, heldDigest⟩ :=
    agrees.digest keeps (relabelledTexts.writes keeps short) (texts.writes keeps short)
  obtain rfl := Except.ok.inj (heldDigest.symm.trans observed)
  refine toDomain_ok.mpr ⟨_, relabelled, relabelledDigest, ?_⟩
  simp only [ConfigurationCodec.readMaterial, bind_ok] at configured ⊢
  obtain ⟨triggers, triggersRead, connectors, connectorsRead, schedule, scheduleRead, inputs,
    inputsRead, built⟩ :=
    configured
  refine ⟨triggers, triggersRead, connectors, connectorsRead, schedule, scheduleRead, inputs,
    inputsRead, ?_⟩
  simp only [InstanceConfiguration.build, stored.variantLabel] at built ⊢
  rw [show label.map codec.support.nfc = row.variantLabel.map codec.support.nfc from same]
  exact built

end

end MarketingAgents
