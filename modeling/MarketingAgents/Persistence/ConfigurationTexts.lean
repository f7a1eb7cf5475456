import MarketingAgents.Persistence.ConfigurationRoundTrip

namespace MarketingAgents

open Library
open Library.JsonText

/-! # The canonical texts of a configuration

Every part of a configuration has a text that fits its column, and what is read
of the text agrees with the part.
-/

section

variable {φ : Type} {codec : ConfigurationCodec φ} {value other : PythonValue φ}
  {raw label : String}

namespace ConfigurationCodec

/-- A text of bounded size that is the canonical text of a value. -/
def IsText (codec : ConfigurationCodec φ) (value : PythonValue φ) (raw : String) : Prop :=
  canonicalJsonBytes codec.text codec.numbers value = .ok raw.toByteArray ∧
    raw.utf8ByteSize ≤ maxSnapshotBytes

theorem fromUTF8?_some :
    String.fromUTF8? bytes = some decoded ↔ decoded.toByteArray = bytes := by
  unfold String.fromUTF8?
  constructor
  · intro found
    split at found
    · cases found
      rfl
    · cases found
  · rintro rfl
    rw [dif_pos (String.isValidUTF8 _)]
    rfl

theorem canonicalText_ok : codec.canonicalText value label = .ok raw ↔ codec.IsText value raw := by
  simp only [canonicalText, bind_ok, orTampered_ok, require_ok, requireSome_ok,
    fromUTF8?_some, IsText]
  constructor
  · rintro ⟨_, written, _, size, rfl⟩
    exact ⟨written, size⟩
  · rintro ⟨written, size⟩
    exact ⟨_, written, (), size, rfl⟩

theorem parseCanonicalText_ok : codec.parseCanonicalText raw label = .ok value ↔
    jsonLoads codec.numbers raw.toByteArray = some value ∧ codec.IsText value raw := by
  simp only [parseCanonicalText, bind_ok, pure_ok, requireSome_ok, orTampered_ok, require_ok,
    canonicalText_ok]
  constructor
  · rintro ⟨_, loaded, _, written, _, rfl, rfl⟩
    exact ⟨loaded, written⟩
  · rintro ⟨loaded, written⟩
    exact ⟨_, loaded, _, written, (), rfl, rfl⟩

theorem parsed_settled (parsed : codec.parseCanonicalText raw label = .ok value) :
    value.Settled codec.text codec.numbers ∧ codec.IsText value raw := by
  obtain ⟨loaded, text⟩ := parseCanonicalText_ok.mp parsed
  obtain ⟨decoded, found, settled, _⟩ := canonicalJsonBytes_loaded text.1
  obtain rfl : decoded = value := Option.mem_unique found loaded
  exact ⟨settled, text⟩

theorem IsText.parsed (text : codec.IsText value raw) :
    ∃ read, codec.parseCanonicalText raw label = .ok read ∧ read.Settled codec.text codec.numbers ∧
      codec.IsText read raw ∧ value.Agrees codec.text read := by
  obtain ⟨decoded, found, settled, rewritten⟩ := canonicalJsonBytes_loaded text.1
  exact ⟨decoded, parseCanonicalText_ok.mpr ⟨found, rewritten, text.2⟩, settled,
    ⟨rewritten, text.2⟩, (canonicalJsonBytes_eq_iff text.1 rewritten).mp rfl⟩

theorem IsText.of_agrees {limit : Nat} (text : codec.IsText value raw)
    (writes : other.Writes codec.text codec.numbers limit)
    (agrees : other.Agrees codec.text value) :
    codec.IsText other raw := by
  obtain ⟨written, accepted, _⟩ := writes.bytes
  have same := (canonicalJsonBytes_eq_iff accepted text.1).mpr agrees
  exact ⟨same ▸ accepted, text.2⟩

theorem IsText.agrees_self (text : codec.IsText value raw) : value.Agrees codec.text value :=
  (canonicalJsonBytes_eq_iff text.1 text.1).mp rfl

theorem exists_isText {limit : Nat} (writes : value.Writes codec.text codec.numbers limit)
    (small : limit ≤ maxSnapshotBytes) : ∃ raw, codec.IsText value raw := by
  obtain ⟨written, accepted, size⟩ := writes.bytes
  exact ⟨written, accepted, size.trans small⟩

theorem IsText.written (text : codec.IsText value raw)
    (settled : value.Settled codec.text codec.numbers) :
    ∃ document, value.WrittenAs codec.numbers document := by
  obtain ⟨normal, document, normalized, written, _⟩ := canonicalJsonBytes_ok.mp text.1
  obtain rfl : value = normal := by
    rw [settled_normalize settled] at normalized
    exact Except.ok.inj normalized
  exact ⟨document, written⟩

end ConfigurationCodec

variable {text : TextSupport} {numbers : NumberSupport φ}

theorem writes_plain (keeps : text.KeepsAscii) {value : String} {limit : Nat}
    (plain : PlainText value) (short : value.toList.length ≤ limit) :
    (PythonValue.str value : PythonValue φ).Writes text numbers (6 * limit + 2) := by
  refine (writes_str value).mono ?_
  rw [keeps value plain, plain.size]
  omega

theorem writes_composed {value : String} {limit : Nat} (composed : text.nfc value = value)
    (short : value.toList.length ≤ limit) :
    (PythonValue.str value : PythonValue φ).Writes text numbers (24 * limit + 2) := by
  refine (writes_str value).mono ?_
  have size := textSize_le value.toList
  rw [textSize_toList] at size
  rw [composed]
  omega

theorem writes_grace (digits : 640 ≤ numbers.maxStrDigits) {grace : Nat}
    (bounded : grace ≤ maxMisfireGraceSeconds) :
    (PythonValue.int grace : PythonValue φ).Writes text numbers 20 := by
  have length : (Nat.toDigits 10 grace).length ≤ 5 := by
    rw [Nat.length_toDigits_le_iff (by decide) (by decide)]
    exact lt_of_le_of_lt bounded (by decide)
  exact (writes_nat (length.trans (le_trans (by decide) digits))).mono (by omega)

theorem kind_length (kind : TriggerKind) : kind.value.toList.length ≤ 8 := by
  cases kind <;> decide

theorem policy_length (policy : MisfirePolicy) : policy.value.toList.length ≤ 8 := by
  cases policy <;> decide

theorem workMode_length (mode : WorkMode) : mode.value.toList.length ≤ 14 := by
  cases mode <;> decide

theorem writes_fields (keeps : text.KeepsAscii) {fields : List (String × PythonValue φ)}
    (limits : List Nat) {limit : Nat} (plain : PlainNames names)
    (named : fields.map Prod.fst = names)
    (each : List.Forall₂ (fun field limit => field.2.Writes text numbers limit) fields limits)
    (enough : namesSize names + limits.sum + 2 ≤ limit) :
      (PythonValue.record fields).Writes text numbers limit := by
  subst named
  exact (writes_record keeps plain each).mono enough

theorem writes_trigger (keeps : codec.text.KeepsAscii)
    (zones : PlainZones codec.support.toZoneSupport)
    (digits : 640 ≤ numbers.maxStrDigits) {binding : InstanceTriggerBinding}
    (composed : ∀ cron ∈ binding.cron, codec.text.nfc cron = cron)
    (valid : binding.validate codec.support = .ok ()) :
    (PythonValue.record binding.fields : PythonValue φ).Writes codec.text numbers 4184 := by
  simp only [InstanceTriggerBinding.validate, bind_ok, require_ok, requireOptional_ok] at valid
  obtain ⟨_, source, _, cron, _, zone, _, grace, _⟩ := valid
  refine writes_fields keeps [50, 5, 602, 2402, 602, 50, 20] plainNames_triggerKeys rfl
    ?_ (by decide)
  refine .cons ?_ (.cons ?_ (.cons ?_ (.cons ?_ (.cons ?_ (.cons ?_ (.cons ?_ .nil))))))
  · exact writes_plain keeps (kind_plain _) (kind_length _)
  · exact writes_bool _
  · refine writes_optional (by decide) fun value supplied => ?_
    obtain ⟨plain, short⟩ := eventSourceText_plain (source value supplied)
    exact writes_plain keeps plain short
  · refine writes_optional (by decide) fun value supplied => ?_
    have checked := cron value supplied
    simp only [requireText, require_ok] at checked
    exact writes_composed (composed value supplied) checked.2.2
  · refine writes_optional (by decide) fun value supplied => ?_
    obtain ⟨plain, short⟩ := requireIanaTimezone_plain zones (zone value supplied)
    exact writes_plain keeps plain short
  · exact writes_optional (by decide) fun policy _ =>
      writes_plain keeps (policy_plain policy) (policy_length policy)
  · exact writes_optional (by decide) fun value supplied =>
      writes_grace digits (grace value supplied)

theorem kinds_length {kinds : List TriggerKind} (distinct : kinds.Nodup) : kinds.length ≤ 3 := by
  have known : kinds ⊆ [.manual, .webhook, .schedule] := by
    intro kind _
    cases kind <;> simp
  exact (List.subperm_of_subset distinct known).length_le

theorem writes_triggers (keeps : codec.text.KeepsAscii)
    (zones : PlainZones codec.support.toZoneSupport)
    (digits : 640 ≤ numbers.maxStrDigits) {bindings : List InstanceTriggerBinding}
    (valid : ∀ binding ∈ bindings, (∀ cron ∈ binding.cron, codec.text.nfc cron = cron) ∧
      binding.validate codec.support = .ok ())
    (distinct : (bindings.map (·.kind)).Nodup) :
    (triggersMaterial bindings : PythonValue φ).Writes codec.text numbers 12557 := by
  have count : bindings.length ≤ 3 := by simpa using kinds_length distinct
  have each : ∀ item ∈ bindings.map fun binding =>
    (PythonValue.record binding.fields : PythonValue φ),
      item.Writes codec.text numbers 4184 := by
    rw [List.forall_mem_map]
    exact fun binding listed => writes_trigger keeps zones digits (valid binding listed).1
      (valid binding listed).2
  refine (writes_sequence each).mono ?_
  rw [List.length_map]
  omega

theorem writes_connector (keeps : text.KeepsAscii) {binding : InstanceConnectorBinding}
    (valid : binding.validate = .ok ()) :
    (PythonValue.record binding.fields : PythonValue φ).Writes text numbers 1541 := by
  simp only [InstanceConnectorBinding.validate, bind_ok] at valid
  obtain ⟨_, family, bindingId⟩ := valid
  refine writes_fields keeps [602, 722, 5] plainNames_connectorKeys rfl ?_ (by decide)
  refine .cons ?_ (.cons ?_ (.cons ?_ .nil))
  · obtain ⟨plain, short⟩ := requireConnectorFamily_plain family
    exact writes_plain keeps plain short
  · obtain ⟨plain, short⟩ := requireConnectorBindingId_plain bindingId
    exact writes_plain keeps plain short
  · exact writes_bool _

theorem namesSize_le {bindings : List (String × InstanceConnectorBinding)}
    (plain : ∀ entry ∈ bindings, PlainText entry.1 ∧ entry.1.toList.length ≤ 100) :
    namesSize (bindings.map Prod.fst) ≤ bindings.length * 604 := by
  induction bindings with
  | nil => exact Nat.zero_le _
  | cons entry rest ih =>
      obtain ⟨⟨named, short⟩, others⟩ := List.forall_mem_cons.mp plain
      have small := ih others
      have size := named.size
      simp only [namesSize, List.map_cons, List.sum_cons, List.length_cons] at small ⊢
      omega

theorem writes_connectors (keeps : text.KeepsAscii)
    {bindings : List (String × InstanceConnectorBinding)}
    (valid : ∀ entry ∈ bindings, (PlainText entry.1 ∧ entry.1.toList.length ≤ 100) ∧
      entry.2.validate = .ok ())
    (distinct : (bindings.map Prod.fst).Nodup) (few : bindings.length ≤ 16) :
    (connectorsMaterial bindings : PythonValue φ).Writes text numbers 34322 := by
  have each : List.Forall₂ (fun field limit => field.2.Writes text numbers limit)
      (bindings.map fun entry => (entry.1, (PythonValue.record entry.2.fields : PythonValue φ)))
      (bindings.map fun _ => 1541) := by
    rw [List.forall₂_map_left_iff, List.forall₂_map_right_iff, List.forall₂_same]
    exact fun entry listed => writes_connector keeps (valid entry listed).2
  refine (writes_record keeps
    (plainNames_families (fun entry listed => (valid entry listed).1.1) distinct) each).mono ?_
  have total : (bindings.map fun _ => 1541).sum = bindings.length * 1541 := by simp
  have named := namesSize_le fun entry listed => (valid entry listed).1
  rw [List.map_map, total]
  change namesSize (bindings.map Prod.fst) + bindings.length * 1541 + 2 ≤ 34322
  omega

theorem writes_schedule (keeps : codec.text.KeepsAscii)
    (zones : PlainZones codec.support.toZoneSupport)
    (digits : 640 ≤ numbers.maxStrDigits) {schedule : InstanceSchedule}
    (composed : codec.text.nfc schedule.cron = schedule.cron)
    (valid : schedule.validate codec.support = .ok ()) :
    (PythonValue.record schedule.fields : PythonValue φ).Writes codec.text numbers 3500 := by
  simp only [InstanceSchedule.validate, bind_ok, require_ok, requireText] at valid
  obtain ⟨_, cron, _, zone, grace⟩ := valid
  refine writes_fields keeps [2402, 602, 50, 20] plainNames_scheduleKeys rfl ?_ (by decide)
  refine .cons ?_ (.cons ?_ (.cons ?_ (.cons ?_ .nil)))
  · exact writes_composed composed cron.2.2
  · obtain ⟨plain, short⟩ := requireIanaTimezone_plain zones zone
    exact writes_plain keeps plain short
  · exact writes_plain keeps (policy_plain _) (policy_length _)
  · exact writes_grace digits grace

theorem writes_authority (keeps : text.KeepsAscii) {authority : ScheduledInputAuthority}
    (valid : authority.validate = .ok ()) :
    (PythonValue.record authority.fields : PythonValue φ).Writes text numbers 6400 := by
  simp only [ScheduledInputAuthority.validate, bind_ok] at valid
  obtain ⟨_, workflow, _, schemaId, _, version, _, schemaHash, _, digest, definition⟩ := valid
  have stable : ∀ {value fieldName : String}, requireId value fieldName = .ok () →
      (PythonValue.str value : PythonValue φ).Writes text numbers 1442 :=
    fun accepted => writes_plain keeps (requireId_plain accepted).1 (requireId_plain accepted).2
  have digested : ∀ {value fieldName : String}, requireDigest value fieldName = .ok () →
      (PythonValue.str value : PythonValue φ).Writes text numbers 386 :=
    fun accepted => writes_plain keeps (requireDigest_plain accepted).1
      (requireDigest_plain accepted).2.le
  have hashed : (PythonValue.str authority.inputSchemaHash : PythonValue φ).Writes text
    numbers 488 :=
    writes_plain keeps (requireSchemaHash_plain schemaHash).1
      (requireSchemaHash_plain schemaHash).2.le
  refine writes_fields keeps [1442, 386, 1442, 488, 1442, 386] plainNames_authorityKeys rfl
    ?_ (by decide)
  exact .cons (stable workflow) (.cons (digested definition) (.cons (stable schemaId) (.cons hashed
    (.cons (stable version) (.cons (digested digest) .nil)))))

theorem writes_scheduled (keeps : codec.text.KeepsAscii) {snapshot : ScheduledInput}
    (valid : snapshot.validate = .ok ())
    (canonical : codec.freezePayload frozen = .ok snapshot.admittedPayload)
    (loaded : codec.payloadValue snapshot = .ok payload) :
    (PythonValue.record (snapshot.toMapping payload)).Writes codec.text codec.numbers 39600 := by
  simp only [ScheduledInput.validate, bind_ok, require_ok, requireOptional_ok, canonicalSize,
    utf8ByteSize_ofList] at valid
  obtain ⟨_, size, authority⟩ := valid
  obtain ⟨members, ofJson, settled, written⟩ := freezePayload_ok canonical
  obtain rfl : PythonValue.mapping members = payload := by
    rw [ConfigurationCodec.payloadValue, requireSome_ok, ofJson] at loaded
    exact Option.some.inj loaded
  refine writes_fields keeps [32768, 86, 6400] plainNames_scheduled rfl ?_ (by decide)
  refine .cons ?_ (.cons ?_ (.cons ?_ .nil))
  · exact ⟨_, _, settled_normalize settled, written, size⟩
  · exact writes_plain keeps (workMode_plain _) (workMode_length _)
  · exact writes_optional (by decide) fun present supplied =>
      writes_authority keeps (authority present supplied)

end

end MarketingAgents
