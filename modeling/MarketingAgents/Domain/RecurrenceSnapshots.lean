import MarketingAgents.Domain.CanonicalRecords
import MarketingAgents.Domain.Schedules
import MarketingAgents.Library.CivilTime

namespace MarketingAgents

open Library

/-! # Recurrence snapshots

Recorded selections as dictionaries of texts, and reading them back.
-/

/-- The canonical text of an instant. -/
def utcText (instant : Time) : String := ZonedDatetime.isoformat ⟨.ofInstant instant, some 0⟩

/-- A canonical wall time without an offset at a whole minute. -/
def nominalLocal (value : String) : Bool :=
  match ZonedDatetime.fromIsoformat value with
  | none => false
  | some parsed => parsed.offset = none && parsed.isoformat = value && parsed.datetime.second = 0 &&
      parsed.datetime.microsecond = 0

/-- The zone database with the wall times of the calendar. -/
def calendarZones (zones : ZoneSupport) : ZoneSupport :=
  { zones with minuteAligned := nominalLocal }

section

variable {φ : Type}

/-- A mapping with exactly the given keys, each of them once. -/
def snapshotFields (value : PythonValue φ) (keys : List String) :
    Except Rejection (List (Option String × PythonValue φ)) :=
  match value with
  | .mapping members => do
      require ((members.map Prod.fst).Perm (keys.map some))
        "ValueError" "recurrence snapshot must contain its exact fields"
      return members
  | _ => reject "ValueError" "recurrence snapshot must contain its exact fields"

def snapshotField (members : List (Option String × PythonValue φ)) (key : String) : PythonValue φ :=
  ((members.find? (·.1 = some key)).map Prod.snd).getD .null

def PythonValue.isInt (expected : Int) : PythonValue φ → Bool
  | .int value => value = expected
  | _ => false

def PythonValue.isStr (expected : String) : PythonValue φ → Bool
  | .str value => value = expected
  | _ => false

def PythonValue.str? : PythonValue φ → Option String
  | .str value => some value
  | _ => none

def PythonValue.isNull : PythonValue φ → Bool
  | .null => true
  | _ => false

def utcFromJson (value : PythonValue φ) : Except Rejection Time := do
  let text ← requireSome value.str? "ValueError" "recurrence UTC time must be a canonical string"
  let parsed ← requireSome (ZonedDatetime.fromIsoformat text)
    "ValueError" "recurrence UTC time must be a canonical string"
  require (parsed.offset = some 0) "ValueError" "recurrence UTC time must be a canonical string"
  require (parsed.isoformat = text) "ValueError" "recurrence UTC time must be a canonical string"
  return parsed.datetime.toInstant

namespace RecurrenceResolution

def keys : List String :=
  ["schema_version", "reason", "nominal_local", "timezone", "resolved_at_utc"]

def fields (value : RecurrenceResolution) : List (String × PythonValue φ) :=
  [("schema_version", .int 1),
    ("reason", .str "nonexistent_local_time"),
    ("nominal_local", .str value.nominalLocal),
    ("timezone", .str value.timezone),
    ("resolved_at_utc", .str (utcText value.resolvedAtUtc))]

def toDict (value : RecurrenceResolution) : PythonValue φ := .record value.fields

def fromDict (zones : ZoneSupport) (value : PythonValue φ) :
    Except Rejection RecurrenceResolution := do
  let data ← snapshotFields value keys
  let resolvedAtUtc ← utcFromJson (snapshotField data "resolved_at_utc")
  require ((snapshotField data "schema_version").isInt 1)
    "ValueError" "recurrence resolution version must be supported"
  require ((snapshotField data "reason").isStr "nonexistent_local_time")
    "ValueError" "recurrence resolution reason must be supported"
  let nominalLocal ← requireSome (snapshotField data "nominal_local").str?
    "ValueError" "nominal local time must be a canonical string"
  let timezone ← requireSome (snapshotField data "timezone").str?
    "ValueError" "recurrence resolution timezone must be nonempty, trimmed, and bounded"
  let resolution : RecurrenceResolution := { nominalLocal, timezone, resolvedAtUtc }
  resolution.validate (calendarZones zones)
  return resolution

end RecurrenceResolution

namespace RecurrenceResult

def keys : List String := ["schema_version", "scheduled_for_utc", "resolution"]

def fields (value : RecurrenceResult) : List (String × PythonValue φ) :=
  [("schema_version", .int 1),
    ("scheduled_for_utc", .str (utcText value.scheduledForUtc)),
    ("resolution", .optional RecurrenceResolution.toDict value.resolution)]

def toDict (value : RecurrenceResult) : PythonValue φ := .record value.fields

def resolutionFromDict (zones : ZoneSupport) (value : PythonValue φ) :
    Except Rejection (Option RecurrenceResolution) :=
  if value.isNull then .ok none else some <$> RecurrenceResolution.fromDict zones value

def fromDict (zones : ZoneSupport) (value : PythonValue φ) : Except Rejection RecurrenceResult := do
  let data ← snapshotFields value keys
  let scheduledForUtc ← utcFromJson (snapshotField data "scheduled_for_utc")
  let resolution ← resolutionFromDict zones (snapshotField data "resolution")
  require ((snapshotField data "schema_version").isInt 1)
    "ValueError" "recurrence result version must be supported"
  let result : RecurrenceResult := { scheduledForUtc, resolution }
  result.validate (calendarZones zones)
  return result

end RecurrenceResult

def recurrenceResolutionsToList (values : List RecurrenceResolution) :
    Except Rejection (PythonValue φ) := do
  validateRecurrenceResolutions values
  return .sequence (values.map RecurrenceResolution.toDict)

/-- Read the members of a list one after the other. -/
def resolutionsFromItems (zones : ZoneSupport) :
    List (PythonValue φ) → Except Rejection (List RecurrenceResolution)
  | [] => .ok []
  | item :: rest => do
      let resolution ← RecurrenceResolution.fromDict zones item
      let others ← resolutionsFromItems zones rest
      return resolution :: others

def recurrenceResolutionsFromList (zones : ZoneSupport) :
    PythonValue φ → Except Rejection (List RecurrenceResolution)
  | .sequence items => do
      require (items.length ≤ maxRecordedRecurrenceResolutions)
        "ValueError" "recorded recurrence resolutions must be a bounded JSON list"
      let result ← resolutionsFromItems zones items
      validateRecurrenceResolutions result
      return result
  | _ => reject "ValueError" "recorded recurrence resolutions must be a bounded JSON list"

end

section

variable {φ : Type} {names : List String} {members : List (Option String × PythonValue φ)}
  {fields : List (String × PythonValue φ)}

theorem snapshotFields_ok :
    snapshotFields value names = .ok members ↔
      value = .mapping members ∧ (members.map Prod.fst).Perm (names.map some) := by
  cases value with
  | mapping entries =>
      simp only [snapshotFields, bind_ok, require_ok, pure_ok, PythonValue.mapping.injEq]
      constructor
      · rintro ⟨_, exact', rfl⟩
        exact ⟨rfl, exact'⟩
      · rintro ⟨rfl, exact'⟩
        exact ⟨(), exact', rfl⟩
  | null | bool | int | float | str | sequence | other => simp [snapshotFields, reject]

theorem snapshotField_of_mem (distinct : (members.map Prod.fst).Nodup) (name : String)
    (item : PythonValue φ)
    (member : (some name, item) ∈ members) : snapshotField members name = item := by
  have found : members.find? (fun entry => decide (entry.1 = some name)) = some (some name, item) :=
    find?_key distinct member
  rw [snapshotField, found]
  rfl

theorem snapshotFields_record (named : fields.map Prod.fst = names) :
    snapshotFields (.record fields) names = .ok
      (fields.map fun field => (some field.1, field.2)) := by
  rw [PythonValue.record, snapshotFields_ok, List.map_map, ← named, List.map_map]
  exact ⟨rfl, .refl _⟩

theorem snapshotField_record (fields : List (String × PythonValue φ))
    (named : (fields.map Prod.fst).Nodup) {name : String} {item : PythonValue φ}
    (member : (name, item) ∈ fields) :
    snapshotField (fields.map fun field => (some field.1, field.2)) name = item := by
  refine snapshotField_of_mem ?_ name item (List.mem_map.mpr ⟨_, member, rfl⟩)
  rw [List.map_map]
  simpa [List.map_map, Function.comp_def] using named.map (Option.some_injective String)

theorem mapping_same_record (named : fields.map Prod.fst = names) (distinct : names.Nodup)
    (fielded : (members.map Prod.fst).Perm (names.map some))
    (same : ∀ field ∈ fields, (snapshotField members field.1).Same field.2) :
    (PythonValue.mapping members).Same (.record fields) := by
  have once : (members.map Prod.fst).Nodup :=
    fielded.nodup_iff.mpr (distinct.map (Option.some_injective String))
  have lengths := fielded.length_eq
  rw [List.length_map, List.length_map, ← named, List.length_map] at lengths
  refine ⟨by rw [List.length_map]; exact lengths, sameMembers_forall.mpr ?_⟩
  intro member listed
  obtain ⟨name, known, key⟩ := List.mem_map.mp (fielded.mem_iff.mp (List.mem_map_of_mem listed))
  rw [← named] at known
  obtain ⟨field, present, rfl⟩ := List.mem_map.mp known
  refine ⟨field.2, List.mem_map.mpr ⟨field, present, by rw [key]⟩, ?_⟩
  have found := snapshotField_of_mem once field.1 member.2 (by rw [key]; exact listed)
  rw [← found]
  exact same field present

@[simp] theorem isInt_iff {value : PythonValue φ} {expected : Int} :
    value.isInt expected = true ↔ value = .int expected := by
  cases value <;> simp [PythonValue.isInt]

@[simp] theorem isStr_iff {value : PythonValue φ} :
    value.isStr expected = true ↔ value = .str expected := by
  cases value <;> simp [PythonValue.isStr]

@[simp] theorem str?_iff {value : PythonValue φ} : value.str? = some text ↔ value = .str text := by
  cases value <;> simp [PythonValue.str?]

@[simp] theorem isNull_iff {value : PythonValue φ} : value.isNull = true ↔ value = .null := by
  cases value <;> simp [PythonValue.isNull]

theorem utcFromJson_ok {instant : Time} :
    utcFromJson value = .ok instant ↔ value = .str (utcText instant) ∧ instant < endOfTime := by
  simp only [utcFromJson, bind_ok, requireSome_ok, str?_iff, require_ok, pure_ok]
  constructor
  · rintro ⟨text, rfl, parsed, read, _, universal, _, canonical, rfl⟩
    have valid := ZonedDatetime.fromIsoformat_valid read
    refine ⟨?_, valid.toInstant_lt⟩
    rw [utcText, Datetime.ofInstant_toInstant valid, ← universal, ← canonical]
  · rintro ⟨rfl, inside⟩
    obtain ⟨valid, same⟩ := Datetime.ofInstant_valid inside
    have read : ZonedDatetime.fromIsoformat (utcText instant) = some ⟨.ofInstant instant, some 0⟩ :=
      ZonedDatetime.fromIsoformat_isoformat valid (by simp)
    exact ⟨_, rfl, _, read, (), rfl, (), rfl, same⟩

end

section

variable {φ : Type} {zones : ZoneSupport}

namespace RecurrenceResolution

variable {value : RecurrenceResolution}

theorem keys_distinct : keys.Nodup := by decide +kernel

theorem fromDict_toDict (valid : value.validate (calendarZones zones) = .ok ())
    (inside : value.resolvedAtUtc < endOfTime) :
    fromDict zones (value.toDict : PythonValue φ) = .ok value := by
  have read {name : String} {item : PythonValue φ} (member : (name, item) ∈ value.fields) :
      snapshotField ((value.fields : List (String × PythonValue φ)).map fun field =>
        (some field.1, field.2)) name = item :=
    snapshotField_record value.fields keys_distinct member
  simp only [fromDict, bind_ok, require_ok, requireSome_ok, pure_ok, isInt_iff, isStr_iff, str?_iff,
    utcFromJson_ok]
  refine ⟨_, snapshotFields_record rfl, value.resolvedAtUtc, ⟨read (by simp [fields]), inside⟩, (),
    read (by simp [fields]),
    (), read (by simp [fields]), value.nominalLocal, read (by simp [fields]), value.timezone,
      read (by simp [fields]), (),
    valid, rfl⟩

theorem toDict_fromDict (accepted : fromDict zones dict = .ok value) :
    dict.Same value.toDict ∧ value.validate (calendarZones zones) = .ok () ∧
      value.resolvedAtUtc < endOfTime := by
  simp only [fromDict, bind_ok, require_ok, requireSome_ok, pure_ok, isInt_iff, isStr_iff, str?_iff,
    utcFromJson_ok, snapshotFields_ok] at accepted
  obtain ⟨data, ⟨rfl, fielded⟩, resolvedAtUtc, ⟨resolved, inside⟩, _, version, _, reason,
    nominalLocal, nominal, timezone, zone, _, valid, rfl⟩ := accepted
  refine ⟨mapping_same_record rfl keys_distinct fielded ?_, valid, inside⟩
  simp only [fields, List.forall_mem_cons, version, reason, nominal, zone, resolved,
    PythonValue.Same, true_and]
  exact List.forall_mem_nil _

end RecurrenceResolution

namespace RecurrenceResult

variable {value : RecurrenceResult}

theorem keys_distinct : keys.Nodup := by decide +kernel

theorem fromDict_toDict (valid : value.validate (calendarZones zones) = .ok ())
    (inside : value.scheduledForUtc < endOfTime) :
    fromDict zones (value.toDict : PythonValue φ) = .ok value := by
  have read {name : String} {item : PythonValue φ} (member : (name, item) ∈ value.fields) :
      snapshotField ((value.fields : List (String × PythonValue φ)).map fun field =>
        (some field.1, field.2)) name = item :=
    snapshotField_record value.fields keys_distinct member
  simp only [fromDict, bind_ok, require_ok, pure_ok, isInt_iff, utcFromJson_ok]
  refine ⟨_, snapshotFields_record rfl, value.scheduledForUtc, ⟨read (by simp [fields]), inside⟩,
    value.resolution, ?_, (), read (by simp [fields]), (), valid, rfl⟩
  have written : snapshotField ((value.fields : List (String × PythonValue φ)).map fun field =>
    (some field.1, field.2))
      "resolution" = .optional RecurrenceResolution.toDict value.resolution :=
        read (by simp [fields])
  rw [written, resolutionFromDict]
  cases recorded : value.resolution with
  | none => rfl
  | some resolution =>
      simp only [RecurrenceResult.validate, recorded, requireOptional, bind_ok, require_ok] at valid
      obtain ⟨_, proper, selected⟩ := valid
      have back : RecurrenceResolution.fromDict zones (resolution.toDict : PythonValue φ) =
        .ok resolution :=
        RecurrenceResolution.fromDict_toDict proper (selected ▸ inside)
      rw [PythonValue.optional,
        if_neg (by simp [RecurrenceResolution.toDict, PythonValue.record, PythonValue.isNull]),
          back]
      rfl

theorem toDict_fromDict (accepted : fromDict zones dict = .ok value) :
    dict.Same value.toDict ∧ value.validate (calendarZones zones) = .ok () ∧
      value.scheduledForUtc < endOfTime := by
  simp only [fromDict, bind_ok, require_ok, pure_ok, isInt_iff, utcFromJson_ok,
    snapshotFields_ok] at accepted
  obtain ⟨data, ⟨rfl, fielded⟩, scheduledForUtc, ⟨scheduled, inside⟩, resolution, recorded, _,
    version, _, valid, rfl⟩ :=
    accepted
  refine ⟨mapping_same_record rfl keys_distinct fielded ?_, valid, inside⟩
  have resolved : (snapshotField data "resolution").Same
      (.optional RecurrenceResolution.toDict resolution) := by
    unfold resolutionFromDict at recorded
    split at recorded
    · rename_i absent
      rw [isNull_iff] at absent
      cases recorded
      rw [absent]
      trivial
    · rw [map_eq_pure_bind, bind_ok] at recorded
      obtain ⟨found, read, same⟩ := recorded
      cases same
      exact (RecurrenceResolution.toDict_fromDict read).1
  simp only [fields, List.forall_mem_cons, version, scheduled, PythonValue.Same, true_and]
  exact ⟨resolved, List.forall_mem_nil _⟩

end RecurrenceResult

theorem resolutionsFromItems_toDict {values : List RecurrenceResolution}
    (valid : ∀ value ∈ values, value.validate (calendarZones zones) = .ok () ∧
      value.resolvedAtUtc < endOfTime) :
    resolutionsFromItems zones (values.map fun value => (value.toDict : PythonValue φ)) =
      .ok values := by
  induction values with
  | nil => rfl
  | cons value rest ih =>
      obtain ⟨⟨proper, inside⟩, others⟩ := List.forall_mem_cons.mp valid
      simp only [List.map_cons, resolutionsFromItems, bind_ok, pure_ok]
      exact ⟨value, RecurrenceResolution.fromDict_toDict proper inside, rest, ih others, rfl⟩

theorem resolutionsFromItems_ok (accepted : resolutionsFromItems zones items = .ok values) :
    SameItems items (values.map RecurrenceResolution.toDict) ∧
      ∀ value ∈ values, value.validate (calendarZones zones) = .ok () ∧
        value.resolvedAtUtc < endOfTime := by
  induction items generalizing values with
  | nil =>
      cases accepted
      exact ⟨trivial, nofun⟩
  | cons item rest ih =>
      simp only [resolutionsFromItems, bind_ok, pure_ok] at accepted
      obtain ⟨value, read, others, later, rfl⟩ := accepted
      obtain ⟨same, proper⟩ := RecurrenceResolution.toDict_fromDict read
      obtain ⟨sames, propers⟩ := ih later
      exact ⟨⟨same, sames⟩, List.forall_mem_cons.mpr ⟨proper, propers⟩⟩

end

/-- A recorded resolution, selection or list of resolutions is read back from its dictionary, and
whatever is read was the dictionary of what it is read as. -/
theorem recurrenceSnapshots_roundTrip (φ : Type) (zones : ZoneSupport) :
    ((∀ value : RecurrenceResolution, value.validate (calendarZones zones) = .ok () →
      value.resolvedAtUtc < endOfTime →
        RecurrenceResolution.fromDict zones (value.toDict : PythonValue φ) = .ok value) ∧
      ∀ (dict : PythonValue φ) value, RecurrenceResolution.fromDict zones dict = .ok value →
        dict.Same value.toDict) ∧
    ((∀ value : RecurrenceResult, value.validate (calendarZones zones) = .ok () →
      value.scheduledForUtc < endOfTime →
        RecurrenceResult.fromDict zones (value.toDict : PythonValue φ) = .ok value) ∧
      ∀ (dict : PythonValue φ) value, RecurrenceResult.fromDict zones dict = .ok value →
        dict.Same value.toDict) ∧
    (∀ (values : List RecurrenceResolution) (list : PythonValue φ),
      (∀ value ∈ values, value.validate (calendarZones zones) = .ok () ∧
        value.resolvedAtUtc < endOfTime) →
        recurrenceResolutionsToList values = .ok list →
          recurrenceResolutionsFromList zones list = .ok values) ∧
    ∀ (list : PythonValue φ) values, recurrenceResolutionsFromList zones list = .ok values →
      ∃ written, recurrenceResolutionsToList values = .ok written ∧ list.Same written := by
  refine ⟨⟨fun _ => RecurrenceResolution.fromDict_toDict,
    fun _ _ read => (RecurrenceResolution.toDict_fromDict read).1⟩,
    ⟨fun _ => RecurrenceResult.fromDict_toDict,
      fun _ _ read => (RecurrenceResult.toDict_fromDict read).1⟩, ?_, ?_⟩
  · intro values list valid written
    simp only [recurrenceResolutionsToList, bind_ok, pure_ok] at written
    obtain ⟨_, bounded, rfl⟩ := written
    simp only [recurrenceResolutionsFromList, bind_ok, require_ok, pure_ok, List.length_map]
    have length : values.length ≤ maxRecordedRecurrenceResolutions := by
      simp only [validateRecurrenceResolutions, bind_ok, require_ok] at bounded
      exact bounded.choose_spec.1
    exact ⟨(), length, values, resolutionsFromItems_toDict valid, (), bounded, rfl⟩
  · intro list values accepted
    cases list with
    | sequence items =>
        simp only [recurrenceResolutionsFromList, bind_ok, require_ok, pure_ok] at accepted
        obtain ⟨_, _, result, read, _, bounded, rfl⟩ := accepted
        refine ⟨.sequence (result.map RecurrenceResolution.toDict), ?_,
          (resolutionsFromItems_ok read).1⟩
        simp only [recurrenceResolutionsToList, bind_ok, pure_ok]
        exact ⟨(), bounded, trivial⟩
    | null | bool | int | float | str | mapping | other => cases accepted

namespace SpringExample

def zones : ZoneSupport where
  strip := id
  words _ := 5
  knownTimezone zone := zone = "Europe/London"
  minuteAligned _ := false
  localSnapshot _ _ := ("", 0)

def resolution : RecurrenceResolution where
  nominalLocal := "2024-03-31T01:30:00.000000"
  timezone := "Europe/London"
  resolvedAtUtc := Datetime.toInstant ⟨2024, 3, 31, 1, 0, 0, 0⟩

end SpringExample

open SpringExample in
theorem recurrenceSnapshots_roundTrip_spring :
    utcText resolution.resolvedAtUtc = "2024-03-31T01:00:00.000000+00:00" ∧
      RecurrenceResolution.fromDict zones (resolution.toDict : PythonValue Bool) =
        .ok resolution := by
  obtain ⟨⟨back, _⟩, _⟩ := recurrenceSnapshots_roundTrip Bool zones
  exact ⟨by decide +kernel, back resolution (by decide +kernel) (by decide +kernel)⟩

end MarketingAgents
