import MarketingAgents.Persistence.ConfigurationReading

namespace MarketingAgents

open Library
open Library.JsonText

/-! # Reading collections and scheduled input -/

section

variable {φ : Type} {codec : ConfigurationCodec φ} {value : PythonValue φ}

theorem readTriggers_agrees (keeps : codec.text.KeepsAscii)
    (zones : PlainZones codec.support.toZoneSupport)
    (settled : value.Settled codec.text codec.numbers) :
    codec.readTriggers value = .ok bindings ↔ (triggersMaterial bindings).Agrees codec.text value ∧
      ∀ binding ∈ bindings, (∀ cron ∈ binding.cron, codec.text.nfc cron = cron) ∧
        binding.validate codec.support = .ok () := by
  rw [triggersMaterial, sequence_agrees_settled]
  cases value with
  | null | bool | int | float | str | mapping | other =>
      simp [ConfigurationCodec.readTriggers, reject_ok]
  | sequence items =>
      have each := items_settled.mp settled
      have related : List.Forall₂ (fun item binding => codec.readTrigger item = .ok binding)
        items bindings ↔
          List.Forall₂ (fun item binding => ((∀ cron ∈ binding.cron, codec.text.nfc cron = cron) ∧
            binding.validate codec.support = .ok ()) ∧
              (PythonValue.record binding.fields).Agrees codec.text item) items bindings :=
        related_congr fun item listed binding _ => by
          rw [readTrigger_agrees keeps zones (each item listed), and_comm]
      simp only [ConfigurationCodec.readTriggers, mapM_ok, related, PythonValue.sequence.injEq,
        exists_eq_left', List.forall₂_map_left_iff]
      constructor
      · intro all
        obtain ⟨valid, agree⟩ := (List.forall₂_and_left bindings items).mp all.flip
        exact ⟨agree, valid⟩
      · rintro ⟨agree, valid⟩
        exact ((List.forall₂_and_left bindings items).mpr ⟨valid, agree⟩).flip

theorem connectors_related {members : List (Option String × PythonValue φ)}
    {entries : List (String × InstanceConnectorBinding)} :
      readConnectors (.mapping members) = .ok entries ↔
      List.Forall₂ (fun member entry => member.1 = some entry.1 ∧
        readConnector member.2 = .ok entry.2) members entries := by
  rw [readConnectors, mapM_ok]
  refine related_congr fun member _ entry _ => ?_
  simp only [bind_ok, requireSome_ok, pure_ok]
  constructor
  · rintro ⟨_, family, _, read, rfl⟩
    exact ⟨family, read⟩
  · rintro ⟨family, read⟩
    exact ⟨_, family, _, read, rfl⟩

theorem plainNames_families {entries : List (String × InstanceConnectorBinding)}
    (plain : ∀ entry ∈ entries, PlainText entry.1) (distinct : (entries.map Prod.fst).Nodup) :
    PlainNames ((entries.map fun entry =>
      (entry.1, (PythonValue.record entry.2.fields : PythonValue φ))).map Prod.fst) := by
  rw [List.map_map]
  exact ⟨List.forall_mem_map.mpr plain, distinct⟩

theorem readConnectors_agrees (keeps : codec.text.KeepsAscii)
    (settled : value.Settled codec.text codec.numbers)
    {entries : List (String × InstanceConnectorBinding)} (read : readConnectors value = .ok entries)
    (plain : ∀ entry ∈ entries, PlainText entry.1) :
      (connectorsMaterial entries).Agrees codec.text value ∧
      (entries.map Prod.fst).Nodup ∧ ∀ entry ∈ entries, entry.2.validate = .ok () := by
  cases value with
  | null | bool | int | float | str | sequence | other => simp [readConnectors, reject_ok] at read
  | mapping members =>
      have related := connectors_related.mp read
      have names : members.map Prod.fst = entries.map fun entry => some entry.1 :=
        map_eq_of_related related fun holds => holds.1
      have distinct : (entries.map Prod.fst).Nodup := by
        have distinct := settled.1
        rw [names] at distinct
        exact .of_map some (by simpa [List.map_map, Function.comp_def] using distinct)
      have each : ∀ entry ∈ entries, ∃ item, (some entry.1, item) ∈ members ∧
          readConnector item = .ok entry.2 := by
        intro entry listed
        obtain ⟨member, known, named, one⟩ := exists_related related listed
        exact ⟨member.2, named ▸ known, one⟩
      refine ⟨?_, distinct, fun entry listed => ?_⟩
      · rw [connectorsMaterial, record_agrees_settled keeps
          (plainNames_families plain distinct) settled, hasExactly_mapping, names]
        refine ⟨by simp [List.map_map, Function.comp_def], ?_⟩
        rw [List.forall_mem_map]
        intro entry listed
        obtain ⟨item, known, one⟩ := each entry listed
        exact ⟨item, (item?_mapping settled.1).mpr known,
          ((readConnector_agrees keeps (membersSettled_mem settled.2 known)).mp one).1⟩
      · obtain ⟨item, known, one⟩ := each entry listed
        exact ((readConnector_agrees keeps (membersSettled_mem settled.2 known)).mp one).2

/-- Connector bindings are read, in some order, of every value that agrees with them. -/
theorem connectors_read (keeps : codec.text.KeepsAscii)
    (settled : value.Settled codec.text codec.numbers)
    {bindings : List (String × InstanceConnectorBinding)}
    (valid : ∀ entry ∈ bindings, PlainText entry.1 ∧ entry.2.validate = .ok ())
    (distinct : (bindings.map Prod.fst).Nodup)
    (agrees : (connectorsMaterial bindings).Agrees codec.text value) :
    ∃ entries, readConnectors value = .ok entries ∧ entries.Perm bindings := by
  rw [connectorsMaterial, record_agrees_settled keeps
    (plainNames_families (fun entry listed => (valid entry listed).1) distinct) settled] at agrees
  obtain ⟨shaped, found⟩ := agrees
  cases value with
  | null | bool | int | float | str | sequence | other => cases shaped
  | mapping members =>
      rw [hasExactly_mapping, List.map_map, List.map_map] at shaped
      rw [List.forall_mem_map] at found
      have each : ∀ member ∈ members, ∃ entry, entry ∈ bindings ∧ member.1 = some entry.1 ∧
          readConnector member.2 = .ok entry.2 := by
        intro member listed
        obtain ⟨entry, bound, named⟩ := List.mem_map.mp (shaped.2 (List.mem_map_of_mem listed))
        obtain ⟨item, stored, agree⟩ := found entry bound
        have key : member.1 = some entry.1 := named.symm
        have same : member.2 = item := by
          have here : (PythonValue.mapping members).item? entry.1 = some member.2 :=
            (item?_mapping settled.1).mpr (key ▸ listed)
          exact Option.mem_unique here stored
        refine ⟨entry, bound, key, ?_⟩
        rw [same, readConnector_agrees keeps (item?_settled settled stored)]
        exact ⟨agree, (valid entry bound).2⟩
      obtain ⟨entries, related⟩ := exists_related_list each
      refine ⟨entries, connectors_related.mpr (related.imp fun _ _ holds => holds.2), ?_⟩
      have names : members.map Prod.fst = entries.map fun entry => some entry.1 :=
        map_eq_of_related related fun holds => holds.2.1
      have inside : entries ⊆ bindings := by
        intro entry listed
        obtain ⟨_, _, bound, _⟩ := exists_related related listed
        exact bound
      have entriesDistinct : entries.Nodup := by
        have keys := settled.1
        rw [names] at keys
        exact .of_map (fun entry : String × InstanceConnectorBinding => some entry.1) keys
      have lengths : bindings.length ≤ entries.length := by
        have known : (bindings.map fun entry => some entry.1) ⊆ entries.map fun entry =>
          some entry.1 :=
          names ▸ shaped.1
        have keys : (bindings.map fun entry => some entry.1).Nodup := by
          simpa [List.map_map, Function.comp_def] using distinct.map (Option.some_injective _)
        simpa using (List.subperm_of_subset keys known).length_le
      exact (List.subperm_of_subset entriesDistinct inside).perm_of_length_le lengths

theorem freezePayload_ok (frozen : codec.freezePayload value = .ok document) :
    ∃ members, PythonValue.ofJson codec.numbers document = some (.mapping members) ∧
      (PythonValue.mapping members).Settled codec.text codec.numbers ∧
      (PythonValue.mapping members).WrittenAs codec.numbers document := by
  cases value with
  | null | bool | int | float | str | sequence | other =>
      simp [ConfigurationCodec.freezePayload, reject_ok] at frozen
  | mapping members =>
      simp only [ConfigurationCodec.freezePayload, bind_ok, document_written] at frozen
      obtain ⟨normalized, accepted, written⟩ := frozen
      obtain ⟨composed, settled⟩ := normalize_settled accepted
      obtain ⟨_, decoded, ofJson, decodedSettled, decodedWritten⟩ :=
        settled_readBack settled written
      rw [composed, PythonValue.nfcAll] at written
      obtain ⟨documents, rfl, _⟩ := written
      cases decoded with
      | mapping members => exact ⟨members, ofJson, decodedSettled, decodedWritten⟩
      | null | bool | int | float | str | sequence | other =>
          simp [PythonValue.WrittenAs] at decodedWritten

theorem freezePayload_settled
    (settled : (PythonValue.mapping members).Settled codec.text codec.numbers)
    (written : (PythonValue.mapping members).WrittenAs codec.numbers document)
    (valueSettled : value.Settled codec.text codec.numbers)
    (valueWritten : value.WrittenAs codec.numbers other)
    (agrees : (PythonValue.mapping members).Agrees codec.text value) :
    codec.freezePayload value = .ok document := by
  rw [PythonValue.Agrees, settled_nfcAll settled, settled_nfcAll valueSettled] at agrees
  obtain rfl := (same_iff settled valueSettled written valueWritten).mp agrees
  cases value with
  | null | bool | int | float | str | sequence | other => exact agrees.elim
  | mapping others =>
      simp only [ConfigurationCodec.freezePayload, bind_ok, document_written]
      exact ⟨_, settled_normalize valueSettled, valueWritten⟩

theorem workMode_plain (mode : WorkMode) : PlainText mode.value := by
  cases mode <;> exact plain_of_all (by decide)

theorem plainNames_scheduled : PlainNames ["input", "mode", "authority"] := by decide

theorem scheduled_agrees_iff (keeps : codec.text.KeepsAscii)
    (settled : value.Settled codec.text codec.numbers) {snapshot : ScheduledInput}
    (bound : snapshot.authority = some authority) :
    (PythonValue.record (snapshot.toMapping payload)).Agrees codec.text value ↔
      value.hasExactly ["input", "mode", "authority"] = true ∧
      (∃ item, value.item? "input" = some item ∧ payload.Agrees codec.text item) ∧
      value.item? "mode" = some (.str snapshot.mode.value) ∧
      ∃ item, value.item? "authority" = some item ∧
        (PythonValue.record authority.fields).Agrees codec.text item := by
  have names : PlainNames ((snapshot.toMapping payload).map Prod.fst) := plainNames_scheduled
  rw [record_agrees_settled keeps names settled]
  simp only [ScheduledInput.toMapping, bound, List.forall_mem_cons, List.not_mem_nil,
    false_implies, implies_true, and_true, PythonValue.optional]
  refine and_congr_right fun _ => and_congr_right fun _ => and_congr_left fun _ => ?_
  constructor
  · rintro ⟨item, found, agrees⟩
    have same := (leaf_agrees_settled rfl (item?_settled settled found)).mp agrees
    rw [found, same, (workMode_plain _).fixed keeps]
  · intro found
    refine ⟨_, found, (leaf_agrees_settled rfl (item?_settled settled found)).mpr ?_⟩
    rw [(workMode_plain _).fixed keeps]

theorem readScheduledInput_agrees (keeps : codec.text.KeepsAscii)
    (settled : value.Settled codec.text codec.numbers)
    (read : codec.readScheduledInput value = .ok snapshot) :
    ∃ payload, codec.payloadValue snapshot = .ok payload ∧ snapshot.authority.isSome ∧
      (PythonValue.record (snapshot.toMapping payload)).Agrees codec.text value ∧
      snapshot.validate = .ok () ∧
      ∃ frozen, codec.freezePayload frozen = .ok snapshot.admittedPayload := by
  simp only [ConfigurationCodec.readScheduledInput, bind_ok, pure_ok, require_ok, mode_field,
    any_field] at read
  obtain ⟨_, shaped, stored, storedFound, authority, authorized, item, found, document, frozen,
    mode, named, _, valid, rfl⟩ := read
  have itemSettled := item?_settled settled found
  have storedSettled := item?_settled settled storedFound
  obtain ⟨members, ofJson, membersSettled, membersWritten⟩ := freezePayload_ok frozen
  refine ⟨.mapping members, requireSome_ok.mpr ofJson, rfl, ?_, valid, _, frozen⟩
  rw [scheduled_agrees_iff keeps settled rfl]
  refine ⟨shaped, ⟨_, found, ?_⟩, named,
    ⟨_, storedFound, ((readAuthority_agrees keeps storedSettled).mp authorized).1⟩⟩
  -- The payload is read back of the document that the stored payload has.
  cases item with
  | null | bool | int | float | str | sequence | other =>
      simp [ConfigurationCodec.freezePayload, reject_ok] at frozen
  | mapping others =>
      simp only [ConfigurationCodec.freezePayload, bind_ok, document_written] at frozen
      obtain ⟨normalized, accepted, written⟩ := frozen
      rw [settled_normalize itemSettled, Except.ok.injEq] at accepted
      subst accepted
      rw [PythonValue.Agrees, settled_nfcAll membersSettled, settled_nfcAll itemSettled]
      exact (same_iff membersSettled itemSettled membersWritten written).mpr rfl

theorem scheduledInput_read (keeps : codec.text.KeepsAscii)
    (settled : value.Settled codec.text codec.numbers)
    (written : value.WrittenAs codec.numbers document)
    {snapshot : ScheduledInput} (valid : snapshot.validate = .ok ())
    (bound : snapshot.authority.isSome)
    (canonical : codec.freezePayload frozen = .ok snapshot.admittedPayload)
    (loaded : codec.payloadValue snapshot = .ok payload)
    (agrees : (PythonValue.record (snapshot.toMapping payload)).Agrees codec.text value) :
    codec.readScheduledInput value = .ok snapshot := by
  obtain ⟨admittedPayload, mode, authority⟩ := snapshot
  obtain ⟨authority, rfl⟩ := Option.isSome_iff_exists.mp bound
  obtain ⟨shaped, ⟨item, found, agree⟩, named, stored, storedFound, authorized⟩ :=
    (scheduled_agrees_iff keeps settled rfl).mp agrees
  obtain ⟨members, ofJson, membersSettled, membersWritten⟩ := freezePayload_ok canonical
  obtain rfl : PythonValue.mapping members = payload := by
    rw [ConfigurationCodec.payloadValue, requireSome_ok, ofJson] at loaded
    exact Option.some.inj loaded
  have itemWritten : ∃ document, item.WrittenAs codec.numbers document :=
    written_item? settled written found
  obtain ⟨_, itemWritten⟩ := itemWritten
  have checks := valid
  simp only [ScheduledInput.validate, bind_ok, require_ok, requireOptional_ok] at checks
  have authorityValid : authority.validate = .ok () := checks.choose_spec.2 authority rfl
  simp only [ConfigurationCodec.readScheduledInput, bind_ok, pure_ok, require_ok,
    mode_field, any_field]
  exact ⟨(), shaped, stored, storedFound, authority,
    (readAuthority_agrees keeps (item?_settled settled storedFound)).mpr
      ⟨authorized, authorityValid⟩, item,
    found, admittedPayload,
    freezePayload_settled membersSettled membersWritten
      (item?_settled settled found) itemWritten agree,
    mode, named, (), valid, rfl⟩

end

end MarketingAgents
