import MarketingAgents.Security.ConfigurationAudits

namespace MarketingAgents

open Library
open Library.JsonText

/-! # Round trips and audits of configurations -/

/-- Canonical texts stay apart when they are composed once more. -/
def TextSupport.KeepsTexts {φ : Type} (text : TextSupport) (numbers : NumberSupport φ) : Prop :=
  ∀ (left right : PythonValue φ) (first second : String),
    canonicalJsonBytes text numbers left = .ok first.toByteArray →
    canonicalJsonBytes text numbers right = .ok second.toByteArray →
      text.nfc first = text.nfc second → first = second

section

variable {φ : Type} {audit : PseudonymSupport φ} {key : String}
  {configuration first second : InstanceConfiguration}

/-- The text of the scheduled input of a configuration. -/
def InstanceConfiguration.Text (codec : ConfigurationCodec φ)
    (configuration : InstanceConfiguration) (raw : Option String) : Prop :=
  Option.Rel (fun snapshot text => codec.scheduledInputText snapshot = .ok text)
    configuration.scheduledInput raw

theorem snapshotBytes_ok : audit.snapshotBytes key configuration = .ok bytes ↔
    ∃ raw, configuration.Text audit.codec raw ∧
      canonicalJsonBytes audit.codec.text audit.codec.numbers
      (.record ((configuration.masked (audit.pseudonym key)).plainFields
        (raw.map (audit.pseudonym key "scheduled_input")))) = .ok bytes := by
  simp only [PseudonymSupport.snapshotBytes, ConfigurationCodec.configurationToPlainMapping,
    bind_ok, pure_ok, optional_mapM_ok, InstanceConfiguration.Text]
  constructor
  · rintro ⟨_, ⟨raw, text, rfl⟩, _, sanitized, written⟩
    rw [snapshot_masked] at sanitized
    exact ⟨raw, text, Except.ok.inj sanitized ▸ written⟩
  · rintro ⟨raw, text, written⟩
    exact ⟨_, ⟨raw, text, rfl⟩, _, snapshot_masked configuration raw, written⟩

theorem plainFields_names (configuration : InstanceConfiguration) (raw : Option String) :
    (configuration.plainFields (φ := φ) raw).map Prod.fst =
      ["enabled", "variant_label", "trigger_bindings", "connector_bindings", "schedule"] ++
        raw.toList.map fun _ => "scheduled_input" := by
  cases raw <;> rfl

theorem plainNames_snapshot (configuration : InstanceConfiguration) (raw : Option String) :
    PlainNames ((configuration.plainFields (φ := φ) raw).map Prod.fst) := by
  have all : PlainNames (["enabled", "variant_label", "trigger_bindings", "connector_bindings",
    "schedule"] ++
      ["scheduled_input"]) := by decide
  cases raw with
  | some => exact all
  | none =>
      exact ⟨fun name listed => all.1 name (List.mem_append_left _ listed), all.2.of_append_left⟩

theorem kept_connectors (valid : configuration.Valid codec) :
    KeptConnectors configuration.connectorBindings where
  plain entry listed := (families_plain valid.built entry listed).1
  valid := valid.connectors
  distinct := valid.distinct
  sorted := (congrArg InstanceConfiguration.connectorBindings
    (InstanceConfiguration.build_shape valid.built)).symm

theorem texts_eq_iff {codec : ConfigurationCodec φ} (keeps : codec.text.KeepsAscii)
    (apart : codec.text.KeepsTexts codec.numbers) (firstValid : first.Valid codec)
    (secondValid : second.Valid codec)
    (leftText : first.Text codec left) (rightText : second.Text codec right) :
    left.map codec.text.nfc = right.map codec.text.nfc ↔
      first.scheduledInput = second.scheduledInput := by
  have firstFrozen := firstValid.scheduledInput
  have secondFrozen := secondValid.scheduledInput
  rw [InstanceConfiguration.Text] at leftText rightText
  generalize first.scheduledInput = snapshot at leftText firstFrozen ⊢
  generalize second.scheduledInput = other at rightText secondFrozen ⊢
  cases leftText with
  | none => cases rightText <;> simp
  | some leftText =>
      cases rightText with
      | none => simp
      | some rightText =>
          simp only [Option.map_some, Option.some.injEq]
          rw [← scheduledInputText_eq_iff keeps (firstFrozen _ rfl)
            (secondFrozen _ rfl) leftText rightText]
          obtain ⟨_, _, leftWritten⟩ := scheduledInputText_ok.mp leftText
          obtain ⟨_, _, rightWritten⟩ := scheduledInputText_ok.mp rightText
          exact ⟨apart _ _ _ _ leftWritten rightWritten, congrArg _⟩

theorem composed_eq_iff : first.composed text = second.composed text ↔
    first.enabled = second.enabled ∧ first.variantLabel = second.variantLabel ∧
    first.triggerBindings.map (·.composed text) = second.triggerBindings.map (·.composed text) ∧
    first.connectorBindings = second.connectorBindings ∧
    first.schedule.map (·.composed text) = second.schedule.map (·.composed text) ∧
    first.scheduledInput = second.scheduledInput := by
  simp only [InstanceConfiguration.composed, InstanceConfiguration.plainMapping,
    InstanceConfiguration.mk.injEq, true_and]

theorem composed_fixed (composed : CronsComposed text configuration) :
    configuration.composed text = configuration.plainMapping := by
  have triggers : configuration.triggerBindings.map (·.composed text) =
      configuration.triggerBindings := by
    refine (List.map_congr_left fun binding listed => ?_).trans (List.map_id _)
    have cron : binding.cron.map text.nfc = binding.cron := by
      have fixed := composed.1 binding listed
      cases given : binding.cron with
      | none => rfl
      | some cron => exact congrArg some (fixed cron given)
    rw [InstanceTriggerBinding.composed, cron]
    rfl
  have schedule : configuration.schedule.map (·.composed text) = configuration.schedule := by
    cases given : configuration.schedule with
    | none => rfl
    | some schedule =>
        have fixed := composed.2 schedule given
        rw [Option.map_some, InstanceSchedule.composed, fixed]
  rw [InstanceConfiguration.composed, triggers, schedule]
  rfl

/-- Masked snapshots agree exactly for configurations that are the same once their expressions are
composed. -/
theorem snapshots_agree_iff (keeps : audit.codec.text.KeepsAscii)
    (zones : PlainZones audit.codec.support.toZoneSupport)
    (apart : audit.codec.text.KeepsTexts audit.codec.numbers) (digests : audit.Digests key)
    (firstValid : first.Valid audit.codec) (secondValid : second.Valid audit.codec)
    (leftText : first.Text audit.codec left) (rightText : second.Text audit.codec right) :
    (PythonValue.record ((first.masked (audit.pseudonym key)).plainFields
      (left.map (audit.pseudonym key "scheduled_input"))) : PythonValue φ).Agrees audit.codec.text
      (.record ((second.masked (audit.pseudonym key)).plainFields
        (right.map (audit.pseudonym key "scheduled_input")))) ↔
        first.composed audit.codec.text = second.composed audit.codec.text := by
  have texts := texts_eq_iff keeps apart firstValid secondValid leftText rightText
  have label := variantLabel_composed firstValid
  have otherLabel := variantLabel_composed secondValid
  have triggers := trigger_lists_agree_iff keeps zones digests firstValid.triggers
    secondValid.triggers
  have connectors := connector_lists_agree_iff keeps digests (kept_connectors firstValid)
    (kept_connectors secondValid)
  have schedules := optional_schedules_agree_iff keeps zones digests firstValid.schedule
    secondValid.schedule
  rw [composed_eq_iff, ← texts]
  by_cases presence : left.isSome = right.isSome
  · have named : ((first.masked (audit.pseudonym key)).plainFields (φ := φ)
        (left.map (audit.pseudonym key "scheduled_input"))).map Prod.fst =
        ((second.masked (audit.pseudonym key)).plainFields (φ := φ)
          (right.map (audit.pseudonym key "scheduled_input"))).map Prod.fst := by
      rw [plainFields_names, plainFields_names]
      cases left <;> cases right <;> first | rfl | cases presence
    rw [record_agrees keeps (plainNames_snapshot _ _) named rfl]
    cases left <;> cases right <;> cases presence
    · simp [InstanceConfiguration.plainFields, InstanceConfiguration.masked, triggers,
        connectors, schedules, masked_optional_agrees keeps digests, label, otherLabel]
    · simp [InstanceConfiguration.plainFields, InstanceConfiguration.masked, triggers,
        connectors, schedules,
        masked_optional_agrees keeps digests, masked_str_agrees keeps digests, label, otherLabel]
  · constructor
    · intro agrees
      have lengths :=
        ((record_agrees_members keeps (plainNames_snapshot _ _) (plainNames_snapshot _ _)).mp
          agrees).1
      cases left <;> cases right <;> simp [InstanceConfiguration.plainFields] at presence lengths
    · rintro ⟨_, _, _, _, _, same⟩
      cases left <;> cases right <;> simp at presence same

theorem exists_writes_sequence {items : List (PythonValue φ)}
    (each : ∀ item ∈ items, ∃ limit, item.Writes text numbers limit) :
    ∃ limit, (PythonValue.sequence items).Writes text numbers limit := by
  have bounded : ∃ limit, ∀ item ∈ items, item.Writes text numbers limit := by
    induction items with
    | nil => exact ⟨0, nofun⟩
    | cons item rest ih =>
        obtain ⟨⟨limit, writes⟩, others⟩ := List.forall_mem_cons.mp each
        obtain ⟨more, all⟩ := ih others
        refine ⟨limit + more, List.forall_mem_cons.mpr
          ⟨writes.mono (by omega), fun other listed => ?_⟩⟩
        exact (all other listed).mono (by omega)
  obtain ⟨limit, all⟩ := bounded
  exact ⟨_, writes_sequence all⟩

theorem exists_writes_optional {α : Type} {write : α → PythonValue φ}
    {value : Option α} (each : ∀ present ∈ value, ∃ limit,
      (write present).Writes text numbers limit) :
    ∃ limit, (PythonValue.optional write value).Writes text numbers limit := by
  cases value with
  | none => exact ⟨_, writes_null⟩
  | some present => exact each present rfl

section

variable {codec : ConfigurationCodec φ}

theorem exists_writes_trigger (keeps : codec.text.KeepsAscii)
    (digits : 640 ≤ codec.numbers.maxStrDigits) {binding : InstanceTriggerBinding}
    (graceful : ∀ grace ∈ binding.misfireGraceSeconds, grace ≤ maxMisfireGraceSeconds) :
    ∃ limit, (PythonValue.record binding.fields : PythonValue φ).Writes codec.text
      codec.numbers limit := by
  refine exists_writes_record keeps plainNames_triggerKeys ?_
  simp only [InstanceTriggerBinding.fields, List.forall_mem_cons, List.not_mem_nil, false_implies,
    implies_true, and_true]
  exact ⟨⟨_, writes_str _⟩, ⟨_, writes_bool _⟩, exists_writes_optional fun _ _ => ⟨_, writes_str _⟩,
    exists_writes_optional fun _ _ => ⟨_, writes_str _⟩, exists_writes_optional fun _ _ =>
      ⟨_, writes_str _⟩,
    exists_writes_optional fun _ _ => ⟨_, writes_str _⟩,
    exists_writes_optional fun grace supplied => ⟨_, writes_grace digits (graceful grace supplied)⟩⟩

theorem exists_writes_connector (keeps : codec.text.KeepsAscii)
    (binding : InstanceConnectorBinding) :
    ∃ limit, (PythonValue.record binding.fields : PythonValue φ).Writes codec.text
      codec.numbers limit := by
  refine exists_writes_record keeps plainNames_connectorKeys ?_
  simp only [InstanceConnectorBinding.fields, List.forall_mem_cons, List.not_mem_nil,
    false_implies, implies_true, and_true]
  exact ⟨⟨_, writes_str _⟩, ⟨_, writes_str _⟩, ⟨_, writes_bool _⟩⟩

theorem exists_writes_schedule (keeps : codec.text.KeepsAscii)
    (digits : 640 ≤ codec.numbers.maxStrDigits) {schedule : InstanceSchedule}
    (graceful : schedule.misfireGraceSeconds ≤ maxMisfireGraceSeconds) :
    ∃ limit, (PythonValue.record schedule.fields : PythonValue φ).Writes codec.text
      codec.numbers limit := by
  refine exists_writes_record keeps plainNames_scheduleKeys ?_
  simp only [InstanceSchedule.fields, List.forall_mem_cons, List.not_mem_nil, false_implies,
    implies_true, and_true]
  exact ⟨⟨_, writes_str _⟩, ⟨_, writes_str _⟩, ⟨_, writes_str _⟩, ⟨_, writes_grace digits graceful⟩⟩

theorem exists_text (keeps : codec.text.KeepsAscii) (valid : configuration.Valid codec) :
    ∃ raw, configuration.Text codec raw := by
  have frozen := valid.scheduledInput
  simp only [InstanceConfiguration.Text]
  generalize configuration.scheduledInput = snapshot at frozen ⊢
  cases snapshot with
  | none => exact ⟨none, .none⟩
  | some snapshot =>
      obtain ⟨checked, document, canonical⟩ := frozen snapshot rfl
      obtain ⟨payload, loaded, _⟩ := payloadValue_frozen (frozen snapshot rfl)
      obtain ⟨raw, written, _⟩ := (writes_scheduled keeps checked canonical loaded).bytes
      exact ⟨some raw, .some (scheduledInputText_ok.mpr ⟨payload, loaded, written⟩)⟩

end

theorem exists_snapshotBytes (keeps : audit.codec.text.KeepsAscii)
    (digits : 640 ≤ audit.codec.numbers.maxStrDigits) (valid : configuration.Valid audit.codec) :
      ∃ bytes, audit.snapshotBytes key configuration = .ok bytes := by
  obtain ⟨raw, text⟩ := exists_text keeps valid
  have writes :
    ∃ limit, (PythonValue.record ((configuration.masked (audit.pseudonym key)).plainFields
      (raw.map (audit.pseudonym key "scheduled_input")))).Writes audit.codec.text
          audit.codec.numbers limit := by
    refine exists_writes_record keeps (plainNames_snapshot _ _) ?_
    simp only [InstanceConfiguration.plainFields, InstanceConfiguration.masked, List.cons_append,
      List.nil_append, List.forall_mem_cons]
    refine ⟨⟨_, writes_bool _⟩, exists_writes_optional fun _ _ => ⟨_, writes_str _⟩, ?_, ?_, ?_, ?_⟩
    · refine exists_writes_sequence
        (List.forall_mem_map.mpr (List.forall_mem_map.mpr fun binding listed => ?_))
      have checks := valid.triggers binding listed
      simp only [InstanceTriggerBinding.validate, bind_ok, require_ok] at checks
      obtain ⟨_, _, _, _, _, _, _, graceful, _⟩ := checks
      exact exists_writes_trigger keeps digits graceful
    · refine exists_writes_record keeps (plainNames_masked (kept_connectors valid)) ?_
      exact List.forall_mem_map.mpr fun entry _ => exists_writes_connector keeps entry.2
    · refine exists_writes_optional fun schedule supplied => ?_
      obtain ⟨present, known, rfl⟩ := Option.map_eq_some_iff.mp supplied
      have checks := valid.schedule present known
      simp only [InstanceSchedule.validate, bind_ok, require_ok] at checks
      obtain ⟨_, _, _, _, graceful⟩ := checks
      exact exists_writes_schedule keeps digits graceful
    · exact List.forall_mem_map.mpr fun _ _ => ⟨_, writes_str _⟩
  obtain ⟨_, writes⟩ := writes
  obtain ⟨bytes, written, _⟩ := writes.bytes
  exact ⟨_, snapshotBytes_ok.mpr ⟨raw, text, written⟩⟩

theorem snapshotBytes_eq_iff (keeps : audit.codec.text.KeepsAscii)
    (zones : PlainZones audit.codec.support.toZoneSupport)
    (apart : audit.codec.text.KeepsTexts audit.codec.numbers)
    (digits : 640 ≤ audit.codec.numbers.maxStrDigits)
    (digests : audit.Digests key) (firstValid : first.Valid audit.codec)
    (secondValid : second.Valid audit.codec) :
    ∃ firstBytes secondBytes, audit.snapshotBytes key first = .ok firstBytes ∧
      audit.snapshotBytes key second = .ok secondBytes ∧
      (firstBytes = secondBytes ↔ first.composed audit.codec.text =
        second.composed audit.codec.text) := by
  have snapshot : ∀ {configuration : InstanceConfiguration}, configuration.Valid audit.codec →
      ∃ bytes, audit.snapshotBytes key configuration = .ok bytes :=
        fun valid => exists_snapshotBytes keeps digits valid
  obtain ⟨firstBytes, firstWritten⟩ := snapshot firstValid
  obtain ⟨secondBytes, secondWritten⟩ := snapshot secondValid
  refine ⟨firstBytes, secondBytes, firstWritten, secondWritten, ?_⟩
  obtain ⟨left, leftText, leftBytes⟩ := snapshotBytes_ok.mp firstWritten
  obtain ⟨right, rightText, rightBytes⟩ := snapshotBytes_ok.mp secondWritten
  rw [canonicalJsonBytes_eq_iff leftBytes rightBytes]
  exact snapshots_agree_iff keeps zones apart digests firstValid secondValid leftText rightText

/-- A valid configuration survives its row exactly when its expressions are composed and its
revision can be written; the reader accepts rows of such configurations only, which the writer makes
again but for the form of the label; and audits tell configurations apart up to the form of their
expressions. -/
theorem configurationCodec_faithful (audit : PseudonymSupport φ) (key : String)
    (keeps : audit.codec.text.KeepsAscii) (apart : audit.codec.text.KeepsTexts audit.codec.numbers)
    (zones : PlainZones audit.codec.support.toZoneSupport)
    (digits : 640 ≤ audit.codec.numbers.maxStrDigits) (digests : audit.Digests key) :
    (∀ configuration : InstanceConfiguration, configuration.Valid audit.codec →
      configuration.Bound →
      ((∃ row, audit.codec.toRow configuration = .ok row ∧
        audit.codec.toDomain row = .ok configuration) ↔
        CronsComposed audit.codec.text configuration ∧
          ShortNumber audit.codec.numbers configuration.configurationRevision)) ∧
    (∀ row configuration, audit.codec.toDomain row = .ok configuration →
      configuration.Valid audit.codec ∧ configuration.Bound ∧
      CronsComposed audit.codec.text configuration ∧
      audit.codec.toRow configuration = .ok { row with
        variantLabel := row.variantLabel.map audit.codec.text.nfc } ∧
      (audit.codec.toRow configuration = .ok row ↔
        row.variantLabel.map audit.codec.text.nfc = row.variantLabel)) ∧
    ∀ first second : InstanceConfiguration, first.Valid audit.codec → second.Valid audit.codec →
      ∃ firstBytes secondBytes, audit.snapshotBytes key first = .ok firstBytes ∧
        audit.snapshotBytes key second = .ok secondBytes ∧
        (firstBytes = secondBytes ↔ first.composed audit.codec.text =
          second.composed audit.codec.text) ∧
        (CronsComposed audit.codec.text first → CronsComposed audit.codec.text second →
          (firstBytes = secondBytes ↔ first.plainMapping = second.plainMapping)) := by
  refine ⟨fun configuration valid bound => row_roundTrip keeps zones digits valid bound,
    fun row configuration read => ?_, fun first second firstValid secondValid => ?_⟩
  · obtain ⟨valid, bound, composed, written⟩ := toRow_of_read keeps zones digits read
    refine ⟨valid, bound, composed, written, ?_⟩
    rw [written, Except.ok.injEq]
    constructor
    · exact congrArg StoredConfiguration.variantLabel
    · intro same
      rw [same]
  · obtain ⟨firstBytes, secondBytes, firstWritten, secondWritten, told⟩ :=
      snapshotBytes_eq_iff keeps zones apart digits digests firstValid secondValid
    refine ⟨firstBytes, secondBytes, firstWritten, secondWritten, told,
      fun firstComposed secondComposed => ?_⟩
    rw [told, composed_fixed firstComposed, composed_fixed secondComposed]

end

namespace AccentedConfiguration

def support : ConfigurationSupport where
  toTextSupport := acuteSupport
  words _ := 5
  knownTimezone zone := zone = "UTC"
  minuteAligned _ := true
  localSnapshot _ _ := ("", 0)

def hexByte (byte : UInt8) : List Char :=
  [Nat.digitChar (byte.toNat / 16), Nat.digitChar (byte.toNat % 16)]

/-- The bytes of a message stand for their digest. -/
def hexText (bytes : ByteArray) : String := String.ofList (bytes.data.toList.flatMap hexByte)

def audit : PseudonymSupport Bool where
  codec := { support, numbers := halfSupport, sha256 := hexText }
  hmac _ message := hexText message

def schedule (cron : String) : InstanceSchedule where
  cron
  timezone := "UTC"
  misfirePolicy := .skip
  misfireGraceSeconds := 60

def trigger (cron : String) : InstanceTriggerBinding where
  kind := .schedule
  cron := some cron
  timezone := some "UTC"
  misfirePolicy := some .skip
  misfireGraceSeconds := some 60

def configuration (cron : String) : InstanceConfiguration where
  instanceId := "instance:1"
  enabled := true
  variantLabel := some acute
  triggerBindings := [trigger cron]
  connectorBindings := []
  schedule := some (schedule cron)
  configurationRevision := 1

theorem hexByte_injective {rest others : List Char}
    (same : hexByte left ++ rest = hexByte right ++ others) : left = right ∧ rest = others := by
  have digits : ∀ first second : Fin 16, Nat.digitChar first = Nat.digitChar second →
    first = second := by decide
  have leftBound := left.toNat_lt
  have rightBound := right.toNat_lt
  simp only [hexByte, List.cons_append, List.nil_append, List.cons.injEq] at same
  obtain ⟨high, low, tails⟩ := same
  have upper := Fin.val_eq_of_eq
    (digits ⟨left.toNat / 16, by omega⟩ ⟨right.toNat / 16, by omega⟩ high)
  have lower := Fin.val_eq_of_eq
    (digits ⟨left.toNat % 16, by omega⟩ ⟨right.toNat % 16, by omega⟩ low)
  refine ⟨UInt8.toNat_inj.mp ?_, tails⟩
  simp only at upper lower
  omega

theorem hexText_injective : Function.Injective hexText := by
  have each : ∀ left right : List UInt8, left.flatMap hexByte = right.flatMap hexByte →
      left = right := by
    intro left
    induction left with
    | nil =>
        intro right same
        cases right with
        | nil => rfl
        | cons first rest => simp [hexByte] at same
    | cons byte rest ih =>
        intro right same
        cases right with
        | nil => simp [hexByte] at same
        | cons other others =>
            rw [List.flatMap_cons, List.flatMap_cons] at same
            obtain ⟨rfl, tails⟩ := hexByte_injective same
            rw [ih others tails]
  intro left right same
  have bytes := each _ _ (String.ofList_injective same)
  exact ByteArray.ext (Array.toList_inj.mp bytes)

theorem digests (key : String) : audit.Digests key where
  plain message := by
    intro character member
    simp only [audit, hexText, String.toList_ofList, List.mem_flatMap, hexByte] at member
    obtain ⟨byte, _, digit⟩ := member
    have bound := byte.toNat_lt
    simp only [List.mem_cons, List.not_mem_nil, or_false] at digit
    rcases digit with rfl | rfl
    · exact digitChar_plain (by omega)
    · exact digitChar_plain (by omega)
  free := hexText_injective

theorem keeps : audit.codec.text.KeepsAscii := acuteSupport_keepsAscii

theorem zones : PlainZones audit.codec.support.toZoneSupport := by
  intro zone known
  obtain rfl : zone = "UTC" := by simpa [audit, support] using known
  exact plain_of_all (by decide)

theorem keepsTexts : audit.codec.text.KeepsTexts audit.codec.numbers := by
  have unread : (jsonLoads halfSupport decomposedAcute.toByteArray).isNone = true := by
    decide +kernel
  have quoted : ∀ {value : PythonValue Bool} {written : String},
      canonicalJsonBytes audit.codec.text audit.codec.numbers value = .ok written.toByteArray →
        audit.codec.text.nfc written = written := by
    intro value written accepted
    refine if_neg fun accented => ?_
    obtain ⟨decoded, loaded, _⟩ := canonicalJsonBytes_loaded accepted
    subst accented
    rw [show jsonLoads halfSupport decomposedAcute.toByteArray = some decoded from loaded] at unread
    cases unread
  intro left right first second leftAccepted rightAccepted same
  rwa [quoted leftAccepted, quoted rightAccepted] at same

theorem valid {cron : String} (known : cron ∈ [acute, decomposedAcute]) :
    (configuration cron).Valid audit.codec := by
  have checks : ∀ cron ∈ [acute, decomposedAcute],
      (configuration cron).build support = .ok (configuration cron) ∧
        (trigger cron).validate support = .ok () ∧
        (schedule cron).validate support = .ok () := by decide +kernel
  obtain ⟨built, triggered, scheduled⟩ := checks cron known
  refine ⟨built, ?_, nofun, .nil, ?_, nofun⟩
  · intro binding listed
    obtain rfl := List.mem_singleton.mp listed
    exact triggered
  · rintro _ ⟨⟩
    exact scheduled

theorem composed : CronsComposed audit.codec.text (configuration acute) := by
  have fixed : audit.codec.text.nfc acute = acute := by decide +kernel
  refine ⟨fun binding listed => ?_, ?_⟩
  · obtain rfl := List.mem_singleton.mp listed
    rintro _ ⟨⟩
    exact fixed
  · rintro _ ⟨⟩
    exact fixed

theorem short : ShortNumber audit.codec.numbers (configuration acute).configurationRevision := by
  unfold ShortNumber
  decide +kernel

end AccentedConfiguration

open AccentedConfiguration in
theorem configurationCodec_faithful_accented :
    (∃ row, audit.codec.toRow (configuration acute) = .ok row ∧
      audit.codec.toDomain row = .ok (configuration acute)) ∧
    (∃ firstBytes secondBytes, audit.snapshotBytes "key" (configuration acute) = .ok firstBytes ∧
      audit.snapshotBytes "key" { configuration acute with enabled := false } = .ok secondBytes ∧
      firstBytes ≠ secondBytes) := by
  obtain ⟨roundTrips, _, audited⟩ := configurationCodec_faithful audit "key" keeps keepsTexts zones
    (by decide) (digests "key")
  have disabled : ({ configuration acute with enabled := false } : InstanceConfiguration).Valid
      audit.codec := by
    have whole : (configuration acute).Valid audit.codec := valid (by simp)
    refine ⟨by decide +kernel, whole.triggers, whole.connectors, whole.distinct, whole.schedule,
      whole.scheduledInput⟩
  constructor
  · exact (roundTrips (configuration acute) (valid (by simp)) nofun).mpr ⟨composed, short⟩
  · obtain ⟨firstBytes, secondBytes, firstWritten, secondWritten, told, _⟩ :=
      audited (configuration acute) { configuration acute with enabled := false }
        (valid (by simp)) disabled
    refine ⟨firstBytes, secondBytes, firstWritten, secondWritten, fun same => ?_⟩
    have enabled := congrArg InstanceConfiguration.enabled (told.mp same)
    cases enabled

open AccentedConfiguration in
/-- A decomposed expression does not survive its row, a row with a decomposed label is not the one
that the writer makes, and the audit does not tell the two forms of an expression apart. -/
theorem configurationCodec_recomposes :
    audit.Digests "key" ∧ (configuration decomposedAcute).Valid audit.codec ∧
    (configuration decomposedAcute).Bound ∧
    (configuration acute).Valid audit.codec ∧
    (configuration acute).plainMapping ≠ (configuration decomposedAcute).plainMapping ∧
    (¬ ∃ row, audit.codec.toRow (configuration decomposedAcute) = .ok row ∧
      audit.codec.toDomain row = .ok (configuration decomposedAcute)) ∧
    (∃ row, audit.codec.toDomain row = .ok (configuration acute) ∧
      audit.codec.toRow (configuration acute) ≠ .ok row) ∧
    ∃ bytes, audit.snapshotBytes "key" (configuration acute) = .ok bytes ∧
      audit.snapshotBytes "key" (configuration decomposedAcute) = .ok bytes := by
  have plain : (configuration acute).Valid audit.codec := valid (by simp)
  have accented : (configuration decomposedAcute).Valid audit.codec := valid (by simp)
  have digits : 640 ≤ audit.codec.numbers.maxStrDigits := by decide
  refine ⟨digests "key", accented, nofun, plain, by decide +kernel, ?_, ?_, ?_⟩
  · rw [row_roundTrip keeps zones digits accented nofun]
    rintro ⟨fixed, _⟩
    exact absurd (fixed.2 _ rfl) (by decide +kernel)
  · obtain ⟨row, written, read⟩ :=
      (row_roundTrip keeps zones digits plain nofun).mpr ⟨composed, short⟩
    obtain ⟨_, _, _, _, _, _, label, _⟩ := toRow_ok.mp written
    have relabelled : (some decomposedAcute).map audit.codec.text.nfc =
        row.variantLabel.map audit.codec.text.nfc := by
      rw [label]
      decide +kernel
    refine ⟨_, toDomain_relabelled keeps relabelled read, fun same => ?_⟩
    rw [written, Except.ok.injEq] at same
    have other : some decomposedAcute = (configuration acute).variantLabel :=
      (congrArg StoredConfiguration.variantLabel same).symm.trans label
    exact absurd other (by decide +kernel)
  · obtain ⟨firstBytes, secondBytes, firstWritten, secondWritten, told⟩ :=
      snapshotBytes_eq_iff keeps zones keepsTexts digits (digests "key") plain accented
    have same := told.mpr (by decide +kernel)
    exact ⟨firstBytes, firstWritten, same ▸ secondWritten⟩

end MarketingAgents
