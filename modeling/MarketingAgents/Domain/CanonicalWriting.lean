import MarketingAgents.Domain.CanonicalRecords
import MarketingAgents.Library.JsonSize

namespace MarketingAgents

open Library
open Library.JsonText

/-! # Writing and reading canonical records

Which values have a canonical text and how long it is, and what a value that
was read back holds under each name.
-/

section

variable {φ : Type}

/-- The value under a name of a mapping. -/
def PythonValue.item? (name : String) : PythonValue φ → Option (PythonValue φ)
  | .mapping members => (members.find? fun member => member.1 = some name).map Prod.snd
  | _ => none

/-- The names of a mapping are the given ones. -/
def PythonValue.hasExactly (names : List String) : PythonValue φ → Bool
  | .mapping members =>
      names.all (fun name => some name ∈ members.map Prod.fst) &&
        members.all fun member => member.1 ∈ names.map some
  | _ => false

/-- Neither a mapping nor a sequence. -/
def PythonValue.leaf : PythonValue φ → Bool
  | .mapping _ | .sequence _ => false
  | _ => true

/-- A value has a canonical text of at most so many bytes. -/
def PythonValue.Writes (text : TextSupport) (numbers : NumberSupport φ) (value : PythonValue φ)
    (limit : Nat) : Prop :=
  ∃ normalized document, value.normalize text numbers = .ok normalized ∧
    normalized.WrittenAs numbers document ∧
    valueSize document ≤ limit

end

section

variable {φ : Type} {text : TextSupport} {numbers : NumberSupport φ}
  {value : PythonValue φ} {limit : Nat}

theorem PythonValue.Writes.mono {more : Nat} (writes : value.Writes text numbers limit)
    (enough : limit ≤ more) :
    value.Writes text numbers more := by
  obtain ⟨normalized, document, accepted, written, size⟩ := writes
  exact ⟨normalized, document, accepted, written, size.trans enough⟩

theorem PythonValue.Writes.bytes (writes : value.Writes text numbers limit) :
    ∃ written : String, canonicalJsonBytes text numbers value = .ok written.toByteArray ∧
      written.utf8ByteSize ≤ limit := by
  obtain ⟨normalized, document, accepted, written, size⟩ := writes
  exact ⟨_, canonicalJsonBytes_ok.mpr ⟨normalized, document, accepted, written, rfl⟩,
    by rwa [utf8ByteSize_ofList]⟩

theorem writes_null : (PythonValue.null : PythonValue φ).Writes text numbers 4 :=
  ⟨.null, .scalar .null, rfl, rfl, by decide⟩

theorem writes_bool (value : Bool) :
    (PythonValue.bool value : PythonValue φ).Writes text numbers 5 :=
  ⟨.bool value, .scalar (.bool value), rfl, rfl, by cases value <;> decide⟩

theorem writes_str (value : String) :
    (PythonValue.str value : PythonValue φ).Writes text numbers
      (6 * (text.nfc value).utf8ByteSize + 2) :=
  ⟨.str (text.nfc value), .scalar (.string (text.nfc value)), rfl, rfl, textSize_printString _⟩

theorem writes_nat {value : Nat} (short : (Nat.toDigits 10 value).length ≤ numbers.maxStrDigits) :
    (PythonValue.int value : PythonValue φ).Writes text numbers
      (4 * (Nat.toDigits 10 value).length) := by
  refine ⟨.int value, .scalar (.number (String.ofList (intText value))), rfl, ⟨rfl, short⟩, ?_⟩
  have digits : intText value = Nat.toDigits 10 value := by simp [intText]
  rw [valueSize, printValue, printScalar, String.toList_ofList, digits]
  exact textSize_le _

theorem writes_optional {α : Type} {write : α → PythonValue φ} {value : Option α}
    (enough : 4 ≤ limit) (each : ∀ present ∈ value, (write present).Writes text numbers limit) :
    (PythonValue.optional write value).Writes text numbers limit := by
  cases value with
  | none => exact writes_null.mono enough
  | some present => exact each present rfl

theorem writes_sequence {items : List (PythonValue φ)}
    (each : ∀ item ∈ items, item.Writes text numbers limit) :
    (PythonValue.sequence items).Writes text numbers (items.length * (limit + 1) + 2) := by
  have all : ∃ normalized documents, normalizeItems text numbers items = .ok normalized ∧
      documentItems numbers normalized = .ok documents ∧
      (documents.map fun document => valueSize document + 1).sum ≤ items.length * (limit + 1) := by
    induction items with
    | nil => exact ⟨[], [], rfl, rfl, by simp⟩
    | cons item rest ih =>
        obtain ⟨⟨normal, document, accepted, written, size⟩, others⟩ := List.forall_mem_cons.mp each
        obtain ⟨normals, documents, acceptedRest, writtenRest, sizes⟩ := ih others
        refine ⟨normal :: normals, document :: documents, ?_, ?_, ?_⟩
        · simp only [normalizeItems, bind_ok, pure_ok]
          exact ⟨normal, accepted, normals, acceptedRest, rfl⟩
        · simp only [documentItems, bind_ok, pure_ok]
          exact ⟨document, document_written.mpr written, documents, writtenRest, rfl⟩
        · simp only [List.map_cons, List.sum_cons, List.length_cons, Nat.add_mul]
          omega
  obtain ⟨normalized, documents, accepted, written, sizes⟩ := all
  refine ⟨.sequence normalized, .array documents, ?_, ⟨documents, rfl, written⟩, ?_⟩
  · simp only [PythonValue.normalize, bind_ok, pure_ok]
    exact ⟨normalized, accepted, rfl⟩
  · exact (valueSize_array documents).trans (Nat.add_le_add_right sizes 2)

/-- The bytes that the names of a record take. -/
def namesSize (names : List String) : Nat := (names.map fun name => 6 * name.utf8ByteSize + 4).sum

theorem writes_record (keeps : text.KeepsAscii) {fields : List (String × PythonValue φ)}
    (plain : PlainNames (fields.map Prod.fst))
    (each : List.Forall₂ (fun field limit => field.2.Writes text numbers limit) fields limits) :
    (PythonValue.record fields).Writes text numbers
      (namesSize (fields.map Prod.fst) + limits.sum + 2) := by
  have all : ∃ normalized documents,
      normalizeMembers text numbers (fields.map fun field => (some field.1, field.2)) =
        .ok normalized ∧
      normalized.map Prod.fst = fields.map (some ·.1) ∧
        documentMembers numbers normalized = .ok documents ∧
      (documents.map fun member => 6 * member.1.utf8ByteSize + valueSize member.2 + 4).sum ≤
        namesSize (fields.map Prod.fst) + limits.sum := by
    replace plain := plain.1
    induction each with
    | nil => exact ⟨[], [], rfl, rfl, rfl, by simp⟩
    | @cons field limit fields limits head tail ih =>
        obtain ⟨named, others⟩ := List.forall_mem_cons.mp plain
        obtain ⟨normal, document, accepted, written, size⟩ := head
        obtain ⟨normals, documents, acceptedRest, names, writtenRest, sizes⟩ := ih others
        refine ⟨(some field.1, normal) :: normals, (field.1, document) :: documents, ?_, ?_, ?_, ?_⟩
        · simp only [List.map_cons, normalizeMembers, bind_ok, pure_ok]
          exact ⟨normal, accepted, normals, acceptedRest, by rw [Option.map_some, keeps _ named]⟩
        · rw [List.map_cons, List.map_cons, names]
        · simp only [documentMembers, bind_ok, pure_ok]
          exact ⟨document, document_written.mpr written, documents, writtenRest, rfl⟩
        · simp only [namesSize, List.map_cons, List.sum_cons] at sizes ⊢
          omega
  obtain ⟨normalized, documents, accepted, names, written, sizes⟩ := all
  have distinct : (normalized.map Prod.fst).Nodup := by
    rw [names, show fields.map (some ·.1) = (fields.map Prod.fst).map some by simp]
    exact plain.2.map (Option.some_injective _)
  refine ⟨.mapping normalized, .object (documents.insertionSort NamedBefore), ?_,
    ⟨documents, rfl, written⟩, ?_⟩
  · simp only [PythonValue.record, PythonValue.normalize, bind_ok, pure_ok, require_ok]
    exact ⟨(), by simp, normalized, accepted, (), distinct, rfl⟩
  · exact (valueSize_object (List.perm_insertionSort NamedBefore documents).symm).trans
      (Nat.add_le_add_right sizes 2)

/-- A value has canonical bytes. -/
def PythonValue.Written (text : TextSupport) (numbers : NumberSupport φ)
    (value : PythonValue φ) : Prop :=
  ∃ bytes, canonicalJsonBytes text numbers value = .ok bytes

theorem written_iff {value : PythonValue φ} : value.Written text numbers ↔
    ∃ normalized document, value.normalize text numbers = .ok normalized ∧
      normalized.document numbers = .ok document := by
  simp only [PythonValue.Written, canonicalJsonBytes, bind_ok, pure_ok]
  constructor
  · rintro ⟨_, normalized, accepted, document, written, _⟩
    exact ⟨normalized, document, accepted, written⟩
  · rintro ⟨normalized, document, accepted, written⟩
    exact ⟨_, normalized, accepted, document, written, rfl⟩

theorem written_members (accepted : normalizeMembers text numbers members = .ok normalized)
    (written : documentMembers numbers normalized = .ok documents) :
    ∀ member ∈ members, member.2.Written text numbers := by
  induction members generalizing normalized documents with
  | nil => simp
  | cons member rest ih =>
      obtain ⟨key, item⟩ := member
      simp only [normalizeMembers, bind_ok, pure_ok] at accepted
      obtain ⟨first, head, others, tail, rfl⟩ := accepted
      cases composed : key.map text.nfc with
      | none => simp [composed, documentMembers, reject_ok] at written
      | some name =>
          rw [composed] at written
          simp only [documentMembers, bind_ok, pure_ok] at written
          obtain ⟨document, writtenHead, later, writtenTail, _⟩ := written
          exact List.forall_mem_cons.mpr ⟨written_iff.mpr ⟨first, document, head, writtenHead⟩,
            ih tail writtenTail⟩

theorem written_items (accepted : normalizeItems text numbers items = .ok normalized)
    (written : documentItems numbers normalized = .ok documents) :
      ∀ item ∈ items, item.Written text numbers := by
  induction items generalizing normalized documents with
  | nil => simp
  | cons item rest ih =>
      simp only [normalizeItems, bind_ok, pure_ok] at accepted
      obtain ⟨first, head, others, tail, rfl⟩ := accepted
      simp only [documentItems, bind_ok, pure_ok] at written
      obtain ⟨document, writtenHead, later, writtenTail, _⟩ := written
      exact List.forall_mem_cons.mpr ⟨written_iff.mpr ⟨first, document, head, writtenHead⟩,
        ih tail writtenTail⟩

theorem PythonValue.Written.field {field : String × PythonValue φ}
    (written : (PythonValue.record fields).Written text numbers) (member : field ∈ fields) :
    field.2.Written text numbers := by
  obtain ⟨normalized, document, accepted, written⟩ := written_iff.mp written
  simp only [PythonValue.record, PythonValue.normalize, bind_ok, pure_ok] at accepted
  obtain ⟨_, _, members, each, _, _, rfl⟩ := accepted
  simp only [PythonValue.document, bind_ok, pure_ok] at written
  obtain ⟨documents, all, _⟩ := written
  exact written_members each all (some field.1, field.2) (List.mem_map_of_mem member)

theorem PythonValue.Written.item {item : PythonValue φ}
    (written : (PythonValue.sequence items).Written text numbers) (member : item ∈ items) :
      item.Written text numbers := by
  obtain ⟨normalized, document, accepted, written⟩ := written_iff.mp written
  simp only [PythonValue.normalize, bind_ok, pure_ok] at accepted
  obtain ⟨each, listed, rfl⟩ := accepted
  simp only [PythonValue.document, bind_ok, pure_ok] at written
  obtain ⟨documents, all, _⟩ := written
  exact written_items listed all item member

theorem PythonValue.Written.digits {value : Int}
    (written : (PythonValue.int value : PythonValue φ).Written text numbers) :
    (Nat.toDigits 10 value.natAbs).length ≤ numbers.maxStrDigits := by
  obtain ⟨normalized, document, accepted, written⟩ := written_iff.mp written
  cases accepted
  simp only [PythonValue.document, bind_ok, require_ok] at written
  obtain ⟨_, short, _⟩ := written
  exact short

theorem PythonValue.Writes.written (writes : value.Writes text numbers limit) :
    value.Written text numbers := by
  obtain ⟨normalized, document, accepted, written, _⟩ := writes
  exact written_iff.mpr ⟨normalized, document, accepted, document_written.mpr written⟩

theorem PythonValue.Written.writes (written : value.Written text numbers) :
    ∃ limit, value.Writes text numbers limit := by
  obtain ⟨normalized, document, accepted, written⟩ := written_iff.mp written
  exact ⟨_, normalized, document, accepted, document_written.mp written, le_refl _⟩

theorem exists_writes_record (keeps : text.KeepsAscii) {fields : List (String × PythonValue φ)}
    (plain : PlainNames (fields.map Prod.fst))
    (each : ∀ field ∈ fields, ∃ limit, field.2.Writes text numbers limit) :
    ∃ limit, (PythonValue.record fields).Writes text numbers limit := by
  obtain ⟨limits, sized⟩ := exists_related_list each
  exact ⟨_, writes_record keeps plain sized⟩

theorem written_record (keeps : text.KeepsAscii) {fields : List (String × PythonValue φ)}
    (plain : PlainNames (fields.map Prod.fst))
    (each : ∀ field ∈ fields, field.2.Written text numbers) :
    (PythonValue.record fields).Written text numbers := by
  obtain ⟨_, writes⟩ := exists_writes_record keeps plain fun field member =>
    (each field member).writes
  exact writes.written

theorem written_sequence {items : List (PythonValue φ)}
    (each : ∀ item ∈ items, item.Written text numbers) :
    (PythonValue.sequence items).Written text numbers := by
  have bounded : ∃ limit, ∀ item ∈ items, item.Writes text numbers limit := by
    induction items with
    | nil => exact ⟨0, by simp⟩
    | cons item rest ih =>
        obtain ⟨head, others⟩ := List.forall_mem_cons.mp each
        obtain ⟨first, writes⟩ := head.writes
        obtain ⟨limit, tail⟩ := ih others
        refine ⟨max first limit, List.forall_mem_cons.mpr
          ⟨writes.mono (le_max_left _ _), fun other member => ?_⟩⟩
        exact (tail other member).mono (le_max_right _ _)
  obtain ⟨limit, all⟩ := bounded
  exact (writes_sequence all).written

theorem settled_nfcAll (settled : value.Settled text numbers) : value.nfcAll text = value :=
  (normalize_settled (settled_normalize settled)).1.symm

theorem item?_mapping {members : List (Option String × PythonValue φ)}
    (distinct : (members.map Prod.fst).Nodup)
    :
    (PythonValue.mapping members).item? name = some item ↔ (some name, item) ∈ members := by
  simp only [PythonValue.item?, Option.map_eq_some_iff]
  constructor
  · rintro ⟨member, found, rfl⟩
    have named : member.1 = some name := by simpa using List.find?_some found
    rw [← named]
    exact List.mem_of_find?_eq_some found
  · intro member
    have found : members.find? (fun other => other.1 = some name) = some (some name, item) :=
      find?_key distinct member
    exact ⟨(some name, item), found, rfl⟩

theorem item?_settled (settled : value.Settled text numbers)
    (found : value.item? name = some item) : item.Settled text numbers := by
  cases value with
  | mapping members =>
      exact membersSettled_mem settled.2 ((item?_mapping settled.1).mp found)
  | null | bool | int | float | str | sequence | other => cases found

theorem hasExactly_mapping :
    (PythonValue.mapping members).hasExactly names = true ↔
      names.map some ⊆ members.map Prod.fst ∧ members.map Prod.fst ⊆ names.map some := by
  simp only [PythonValue.hasExactly, Bool.and_eq_true, List.all_eq_true, decide_eq_true_eq,
    List.subset_def, List.forall_mem_map]

theorem written_item?
    (settled : value.Settled text numbers) (written : value.WrittenAs numbers document)
    (found : value.item? name = some item) : ∃ document, item.WrittenAs numbers document := by
  cases value with
  | null | bool | int | float | str | sequence | other => cases found
  | mapping members =>
      obtain ⟨documents, _, each⟩ := written
      obtain ⟨inner, one⟩ := mem_written each ((item?_mapping settled.1).mp found)
      exact ⟨inner, document_written.mp one⟩

/-- A value that was read agrees with a record when it holds the fields of the record and no
others. -/
theorem record_agrees_settled (keeps : text.KeepsAscii) {fields : List (String × PythonValue φ)}
    (plain : PlainNames (fields.map Prod.fst)) (settled : value.Settled text numbers) :
    (PythonValue.record fields).Agrees text value ↔ value.hasExactly (fields.map Prod.fst) = true ∧
      ∀ field ∈ fields, ∃ item, value.item? field.1 = some item ∧ field.2.Agrees text item := by
  cases value with
  | null | bool | int | float | str | sequence | other =>
      simp [PythonValue.Agrees, PythonValue.record, PythonValue.nfcAll, PythonValue.Same,
        PythonValue.hasExactly]
  | mapping members =>
      have namesDistinct : ((fields.map Prod.fst).map some).Nodup :=
        plain.2.map (Option.some_injective _)
      have fixed : ∀ {name item}, (some name, item) ∈ members → item.nfcAll text = item :=
        fun inside => settled_nfcAll (membersSettled_mem settled.2 inside)
      rw [PythonValue.Agrees, settled_nfcAll settled]
      simp only [PythonValue.Agrees, PythonValue.record, PythonValue.nfcAll, PythonValue.Same,
        nfcMembers_record keeps fields plain.1, List.length_map, sameMembers_forall,
          List.forall_mem_map,
        hasExactly_mapping]
      constructor
      · rintro ⟨lengths, inside⟩
        have listed : (fields.map Prod.fst).map some ⊆ members.map Prod.fst := by
          simp only [List.subset_def, List.forall_mem_map]
          intro field member
          obtain ⟨item, found, _⟩ := inside field member
          exact List.mem_map_of_mem found
        have perm : ((fields.map Prod.fst).map some).Perm (members.map Prod.fst) :=
          (List.subperm_of_subset namesDistinct listed).perm_of_length_le (by simp [lengths])
        refine ⟨⟨listed, perm.symm.subset⟩, fun field member => ?_⟩
        obtain ⟨item, found, same⟩ := inside field member
        exact ⟨item, (item?_mapping settled.1).mpr found, by rwa [fixed found]⟩
      · rintro ⟨⟨listed, known⟩, each⟩
        have perm : ((fields.map Prod.fst).map some).Perm (members.map Prod.fst) :=
          (List.perm_ext_iff_of_nodup namesDistinct settled.1).mpr fun name =>
            ⟨@listed name, @known name⟩
        refine ⟨by simpa using perm.length_eq, fun field member => ?_⟩
        obtain ⟨item, found, same⟩ := each field member
        have inside := (item?_mapping settled.1).mp found
        exact ⟨item, inside, by rwa [fixed inside] at same⟩

theorem leaf_agrees_settled {item : PythonValue φ} (leaf : item.leaf = true)
    (settled : value.Settled text numbers) :
    item.Agrees text value ↔ value = item.nfcAll text := by
  rw [PythonValue.Agrees, settled_nfcAll settled]
  cases item with
  | mapping | sequence => cases leaf
  | null | bool | int | float | str | other =>
      cases value <;> simp [PythonValue.nfcAll, PythonValue.Same, eq_comm]

theorem flat_agrees_settled (keeps : text.KeepsAscii) {fields : List (String × PythonValue φ)}
    (plain : PlainNames (fields.map Prod.fst)) (flat : ∀ field ∈ fields, field.2.leaf = true)
    (settled : value.Settled text numbers) :
    (PythonValue.record fields).Agrees text value ↔ value.hasExactly (fields.map Prod.fst) = true ∧
      ∀ field ∈ fields, value.item? field.1 = some (field.2.nfcAll text) := by
  rw [record_agrees_settled keeps plain settled]
  refine and_congr_right fun _ => forall_congr' fun field => imp_congr_right fun member => ?_
  constructor
  · rintro ⟨item, found, agrees⟩
    rw [found, (leaf_agrees_settled (flat field member) (item?_settled settled found)).mp agrees]
  · intro found
    exact ⟨_, found, (leaf_agrees_settled (flat field member) (item?_settled settled found)).mpr
      rfl⟩

theorem flat_found_iff (keeps : text.KeepsAscii) {fields : List (String × PythonValue φ)}
    (plain : PlainNames names) (named : fields.map Prod.fst = names)
    (flat : ∀ field ∈ fields, field.2.leaf = true) (settled : value.Settled text numbers) :
    (value.hasExactly names = true ∧ ∀ field ∈ fields, value.item? field.1 = some field.2) ↔
      (PythonValue.record fields).Agrees text value ∧
        ∀ field ∈ fields, field.2.nfcAll text = field.2 := by
  subst named
  rw [flat_agrees_settled keeps plain flat settled]
  constructor
  · rintro ⟨shaped, found⟩
    have fixed : ∀ field ∈ fields, field.2.nfcAll text = field.2 :=
      fun field member => settled_nfcAll (item?_settled settled (found field member))
    exact ⟨⟨shaped, fun field member => by rw [fixed field member, found field member]⟩, fixed⟩
  · rintro ⟨⟨shaped, found⟩, fixed⟩
    exact ⟨shaped, fun field member => by rw [found field member, fixed field member]⟩

theorem items_settled : ItemsSettled text numbers items ↔
    ∀ item ∈ items, item.Settled text numbers := by
  induction items with
  | nil => simp [ItemsSettled]
  | cons item rest ih => simp [ItemsSettled, ih]

theorem sequence_agrees_settled :
    (PythonValue.sequence items).Agrees text value ↔
      ∃ others, value = .sequence others ∧
        List.Forall₂ (fun item other => item.Agrees text other) items others := by
  cases value with
  | sequence others => simp
  | null | bool | int | float | str | mapping | other =>
      simp [PythonValue.Agrees, PythonValue.nfcAll, PythonValue.Same]

theorem canonicalJsonBytes_loaded (written : canonicalJsonBytes text numbers value = .ok bytes) :
    ∃ decoded, jsonLoads numbers bytes = some decoded ∧ decoded.Settled text numbers ∧
      canonicalJsonBytes text numbers decoded = .ok bytes := by
  obtain ⟨normal, document, normalized, documented, rfl⟩ := canonicalJsonBytes_ok.mp written
  obtain ⟨read, decoded, ofJson, settled, rewritten⟩ :=
    settled_readBack (normalize_settled normalized).2 documented
  exact ⟨decoded, (jsonLoads_written read).trans ofJson, settled,
    canonicalJsonBytes_ok.mpr ⟨decoded, document, settled_normalize settled, rewritten, rfl⟩⟩

theorem writes_of_bytes {written : String}
    (accepted : canonicalJsonBytes text numbers value = .ok written.toByteArray) :
    value.Writes text numbers written.utf8ByteSize := by
  obtain ⟨normal, document, normalized, documented, same⟩ := canonicalJsonBytes_ok.mp accepted
  refine ⟨normal, document, normalized, documented, ?_⟩
  rw [← String.toByteArray_inj.mp same, utf8ByteSize_ofList]
  exact le_rfl

end

end MarketingAgents
