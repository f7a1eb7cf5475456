import Mathlib
import MarketingAgents.Security.StrictJson

namespace MarketingAgents

open Library
open Library.JsonText

/-! # Canonical forms of transported bodies

Whatever passes the strict transport has canonical bytes, and those pass it
again under the same bound.
-/

section

variable {φ : Type}

mutual

/-- How deeply mappings and sequences are nested in a value. -/
def PythonValue.nesting : PythonValue φ → Nat
  | .mapping members => mappingNesting members + 1
  | .sequence items => sequenceNesting items + 1
  | .null | .bool _ | .int _ | .float _ | .str _ | .other _ => 0

def sequenceNesting : List (PythonValue φ) → Nat
  | [] => 0
  | item :: rest => max item.nesting (sequenceNesting rest)

def mappingNesting : List (Option String × PythonValue φ) → Nat
  | [] => 0
  | (_, item) :: rest => max item.nesting (mappingNesting rest)

end

variable {text : TextSupport} {numbers : NumberSupport φ} {spelling : String → String}
  {float : String → Bool}

mutual

theorem nfcAll_nesting : ∀ value : PythonValue φ, (value.nfcAll text).nesting = value.nesting
  | .null | .bool _ | .int _ | .float _ | .str _ | .other _ => rfl
  | .mapping members => congrArg (· + 1) (nfcMembers_nesting members)
  | .sequence items => congrArg (· + 1) (nfcItems_nesting items)

theorem nfcItems_nesting : ∀ items : List (PythonValue φ),
    sequenceNesting (nfcItems text items) = sequenceNesting items
  | [] => rfl
  | item :: rest =>
    by simp only [nfcItems, sequenceNesting, nfcAll_nesting item, nfcItems_nesting rest]

theorem nfcMembers_nesting : ∀ members : List (Option String × PythonValue φ),
    mappingNesting (nfcMembers text members) = mappingNesting members
  | [] => rfl
  | (_, item) :: rest =>
    by simp only [nfcMembers, mappingNesting, nfcAll_nesting item, nfcMembers_nesting rest]

end

theorem membersNesting_perm {left right : List (String × JsonValue)} (perm : left.Perm right) :
    membersNesting left = membersNesting right := by
  induction perm with
  | nil => rfl
  | cons member _ ih => simp only [membersNesting, ih]
  | swap first second rest => simp only [membersNesting, max_left_comm]
  | trans _ _ first second => rw [first, second]

mutual

theorem document_nesting : ∀ {value : PythonValue φ}
    {document : JsonValue}, value.document numbers = .ok document →
    Library.JsonText.nesting document = value.nesting
  | .null, _, written | .bool _, _, written | .str _, _, written => by
      cases written
      rfl
  | .int _, _, written | .float _, _, written => by
      simp only [PythonValue.document, bind_ok, pure_ok] at written
      obtain ⟨_, _, rfl⟩ := written
      rfl
  | .mapping members, _, written => by
      simp only [PythonValue.document, bind_ok, pure_ok] at written
      obtain ⟨documents, members, rfl⟩ := written
      rw [Library.JsonText.nesting,
        membersNesting_perm (List.perm_insertionSort NamedBefore documents),
        documentMembers_nesting members]
      rfl
  | .sequence items, _, written => by
      simp only [PythonValue.document, bind_ok, pure_ok] at written
      obtain ⟨documents, items, rfl⟩ := written
      rw [Library.JsonText.nesting, documentItems_nesting items]
      rfl
  | .other _, _, written => by cases written

theorem documentItems_nesting : ∀ {items : List (PythonValue φ)} {documents : List JsonValue},
    documentItems numbers items = .ok documents → itemsNesting documents = sequenceNesting items
  | [], _, written => by
      cases written
      rfl
  | item :: rest, _, written => by
      simp only [documentItems, bind_ok, pure_ok] at written
      obtain ⟨first, head, others, tail, rfl⟩ := written
      simp only [itemsNesting, sequenceNesting, document_nesting head, documentItems_nesting tail]

theorem documentMembers_nesting : ∀ {members : List (Option String × PythonValue φ)}
    {documents : List (String × JsonValue)}, documentMembers numbers members = .ok documents →
    membersNesting documents = mappingNesting members
  | [], _, written => by
      cases written
      rfl
  | (none, _) :: _, _, written => by cases written
  | (some name, item) :: rest, _, written => by
      simp only [documentMembers, bind_ok, pure_ok] at written
      obtain ⟨first, head, others, tail, rfl⟩ := written
      simp only [membersNesting, mappingNesting, document_nesting head,
        documentMembers_nesting tail]

end

theorem Unambiguous.names (unambiguous : Unambiguous numbers spelling float (.object members)) :
      (members.map Prod.fst).Nodup := by
  rw [Unambiguous] at unambiguous
  exact List.Nodup.of_map spelling (by simpa [List.map_map, Function.comp_def] using unambiguous.1)

mutual

theorem Unambiguous.read : ∀ {document : JsonValue}, Unambiguous numbers spelling float document →
    ∃ value, PythonValue.ofJson numbers document = some value ∧
      value.nesting = Library.JsonText.nesting document
  | .scalar .null, _ => ⟨.null, rfl, rfl⟩
  | .scalar (.bool flag), _ => ⟨.bool flag, rfl, rfl⟩
  | .scalar (.string written), _ => ⟨.str written, rfl, rfl⟩
  | .scalar (.number written), unambiguous => by
      rw [Unambiguous] at unambiguous
      rw [PythonValue.ofJson]
      by_cases whole : integral written = true
      · obtain ⟨value, read⟩ := Option.isSome_iff_exists.mp (by simpa [whole] using unambiguous.2)
        exact ⟨.int value, by simp [whole, read], rfl⟩
      · exact ⟨.float (numbers.parse written), by simp [whole], rfl⟩
  | .array items, unambiguous => by
      rw [Unambiguous] at unambiguous
      obtain ⟨values, read, levels⟩ := unambiguousItems_read unambiguous
      refine ⟨.sequence values, by simp [PythonValue.ofJson, read], ?_⟩
      rw [PythonValue.nesting, Library.JsonText.nesting, levels]
  | .object members, unambiguous => by
      have names := unambiguous.names
      rw [Unambiguous] at unambiguous
      obtain ⟨pairs, read, levels⟩ := unambiguousMembers_read unambiguous.2
      refine ⟨.mapping (dictionary pairs), by simp [PythonValue.ofJson, read], ?_⟩
      rw [dictionary_nodup (by rw [ofJsonMembers_names read]; exact names),
        PythonValue.nesting, levels, Library.JsonText.nesting]

theorem unambiguousItems_read : ∀ {items : List JsonValue},
    UnambiguousItems numbers spelling float items →
    ∃ values, ofJsonItems numbers items = some values ∧ sequenceNesting values = itemsNesting items
  | [], _ => ⟨[], rfl, rfl⟩
  | item :: rest, unambiguous => by
      rw [UnambiguousItems] at unambiguous
      obtain ⟨value, read, levels⟩ := unambiguous.1.read
      obtain ⟨values, others, remaining⟩ := unambiguousItems_read unambiguous.2
      exact ⟨value :: values, by simp [ofJsonItems, read, others],
        by rw [sequenceNesting, itemsNesting, levels, remaining]⟩

theorem unambiguousMembers_read : ∀ {members : List (String × JsonValue)},
    UnambiguousMembers numbers spelling float members →
      ∃ pairs, ofJsonMembers numbers members = some pairs ∧
      mappingNesting (pairs.map fun pair => (some pair.1, pair.2)) = membersNesting members
  | [], _ => ⟨[], rfl, rfl⟩
  | (name, item) :: rest, unambiguous => by
      rw [UnambiguousMembers] at unambiguous
      obtain ⟨value, read, levels⟩ := unambiguous.1.read
      obtain ⟨pairs, others, remaining⟩ := unambiguousMembers_read unambiguous.2
      refine ⟨(name, value) :: pairs, by simp [ofJsonMembers, read, others], ?_⟩
      rw [List.map_cons, mappingNesting, membersNesting, levels, remaining]

end

theorem digit_code {character : Char} (plain : JsonText.isDigit character || character = '-') :
    character.toNat - '0'.toNat < 10 := by
  have zero : '0'.toNat = 48 := by decide
  have nine : '9'.toNat = 57 := by decide
  have dash : '-'.toNat = 45 := by decide
  simp only [JsonText.isDigit, Bool.or_eq_true, Bool.and_eq_true, decide_eq_true_eq, Char.le_def,
    UInt32.le_iff_toNat_le] at plain
  rcases plain with ⟨_, below⟩ | rfl
  · have code : character.toNat ≤ '9'.toNat := below
    omega
  · omega

theorem ofDigitChars_bound {digits : List Char}
    (plain : ∀ digit ∈ digits, JsonText.isDigit digit || digit = '-') :
    ∀ start, Nat.ofDigitChars 10 digits start < (start + 1) * 10 ^ digits.length := by
  induction digits with
  | nil => simp
  | cons digit digits ih =>
      intro start
      rw [List.forall_mem_cons] at plain
      rw [Nat.ofDigitChars_cons, List.length_cons, pow_succ']
      have code := digit_code plain.1
      calc Nat.ofDigitChars 10 digits (10 * start + (digit.toNat - '0'.toNat))
          < (10 * start + (digit.toNat - '0'.toNat) + 1) * 10 ^ digits.length := ih plain.2 _
        _ ≤ ((start + 1) * 10) * 10 ^ digits.length := Nat.mul_le_mul_right _ (by omega)
        _ = (start + 1) * (10 * 10 ^ digits.length) := Nat.mul_assoc _ _ _

theorem scanSign_digits {characters : List Char}
    (plain : ∀ character ∈ characters, JsonText.isDigit character || character = '-') :
    ∀ character ∈ (scanSign characters).2, JsonText.isDigit character || character = '-' := by
  unfold scanSign
  split
  · exact fun character member => plain character (List.mem_cons_of_mem _ member)
  · exact plain

theorem readInt_writable {value : Int} (digits : 1 ≤ numbers.maxStrDigits)
    (whole : integral written = true) (read : readInt numbers written = some value) :
    (Nat.toDigits 10 value.natAbs).length ≤ numbers.maxStrDigits := by
  simp only [readInt] at read
  split at read
  case isFalse => cases read
  case isTrue short =>
    have plain := scanSign_digits (List.all_eq_true.mp whole)
    have bound := ofDigitChars_bound plain 0
    rw [zero_add, one_mul] at bound
    have size : value.natAbs = Nat.ofDigitChars 10 (scanSign written.toList).2 0 := by
      have same := Option.some.inj read
      split at same <;> omega
    rw [Nat.length_toDigits_le_iff (by decide) digits, size]
    exact bound.trans_le (Nat.pow_le_pow_right (by decide) short)

theorem normalizeMembers_keys (accepted : normalizeMembers text numbers members = .ok normalized) :
    normalized.map Prod.fst = members.map fun member => member.1.map text.nfc := by
  induction members generalizing normalized with
  | nil =>
      cases accepted
      rfl
  | cons member rest ih =>
      simp only [normalizeMembers, bind_ok, pure_ok] at accepted
      obtain ⟨first, _, others, tail, rfl⟩ := accepted
      simp [ih tail]

/-- A value has a composed form that can be written. -/
def PythonValue.Writable (text : TextSupport) (numbers : NumberSupport φ)
    (value : PythonValue φ) : Prop :=
  ∃ normalized, value.normalize text numbers = .ok normalized ∧
    ∃ document, normalized.document numbers = .ok document

mutual

/-- What the strict transport admits can be written in its canonical form. -/
theorem Unambiguous.writable (digits : 1 ≤ numbers.maxStrDigits) : ∀ {document : JsonValue}
    {value : PythonValue φ},
    Unambiguous numbers text.nfc (fun written => numbers.finite (numbers.parse written)) document →
    PythonValue.ofJson numbers document = some value → value.Writable text numbers
  | .scalar .null, _, _, read => by
      cases read
      exact ⟨.null, rfl, _, rfl⟩
  | .scalar (.bool flag), _, _, read => by
      cases read
      exact ⟨.bool flag, rfl, _, rfl⟩
  | .scalar (.string written), _, _, read => by
      cases read
      exact ⟨.str (text.nfc written), rfl, _, rfl⟩
  | .scalar (.number written), _, unambiguous, read => by
      rw [Unambiguous] at unambiguous
      rw [PythonValue.ofJson] at read
      by_cases whole : integral written = true
      · simp only [whole, if_true, Option.map_eq_some_iff] at read
        obtain ⟨value, read, rfl⟩ := read
        refine ⟨.int value, rfl, .scalar (.number (String.ofList (intText value))), ?_⟩
        simp only [PythonValue.document, bind_ok, require_ok, pure_ok]
        exact ⟨(), readInt_writable digits whole read, trivial⟩
      · simp only [whole, if_false, Bool.false_eq_true, Option.some.injEq] at read
        subst read
        have finite : numbers.finite (numbers.parse written) = true := by
          simpa [whole] using unambiguous.2
        refine ⟨.float (numbers.parse written), if_pos finite,
          .scalar (.number (numbers.repr (numbers.parse written))), ?_⟩
        simp only [PythonValue.document, bind_ok, require_ok, pure_ok]
        exact ⟨(), finite, trivial⟩
  | .array items, _, unambiguous, read => by
      rw [Unambiguous] at unambiguous
      simp only [PythonValue.ofJson, Option.map_eq_some_iff] at read
      obtain ⟨values, read, rfl⟩ := read
      obtain ⟨normalized, accepted, documents, written⟩ :=
        unambiguousItems_writable digits unambiguous read
      refine ⟨.sequence normalized, ?_, .array documents, ?_⟩
      · simp only [PythonValue.normalize, bind_ok, pure_ok]
        exact ⟨normalized, accepted, rfl⟩
      · simp only [PythonValue.document, bind_ok, pure_ok]
        exact ⟨documents, written, rfl⟩
  | .object members, _, unambiguous, read => by
      have names := unambiguous.names
      rw [Unambiguous] at unambiguous
      simp only [PythonValue.ofJson, Option.map_eq_some_iff] at read
      obtain ⟨pairs, read, rfl⟩ := read
      rw [dictionary_nodup (by rw [ofJsonMembers_names read]; exact names)]
      obtain ⟨normalized, accepted, documents, written⟩ :=
        unambiguousMembers_writable digits unambiguous.2 read
      have keys : (normalized.map Prod.fst).Nodup := by
        rw [normalizeMembers_keys accepted, List.map_map]
        have distinct : (pairs.map fun pair => text.nfc pair.1).Nodup := by
          rw [spelled_names (ofJsonMembers_names read)]
          exact unambiguous.1
        simpa [Function.comp_def, List.map_map] using distinct.map (Option.some_injective _)
      refine ⟨.mapping normalized, ?_, .object (documents.insertionSort NamedBefore), ?_⟩
      · simp only [PythonValue.normalize, bind_ok, require_ok, pure_ok]
        exact ⟨(), by simp, normalized, accepted, (), keys, rfl⟩
      · simp only [PythonValue.document, bind_ok, pure_ok]
        exact ⟨documents, written, rfl⟩

theorem unambiguousItems_writable (digits : 1 ≤ numbers.maxStrDigits) : ∀ {items : List JsonValue}
    {values : List (PythonValue φ)},
    UnambiguousItems numbers text.nfc (fun written =>
      numbers.finite (numbers.parse written)) items →
    ofJsonItems numbers items = some values → ∃ normalized,
      normalizeItems text numbers values = .ok normalized ∧
      ∃ documents, documentItems numbers normalized = .ok documents
  | [], _, _, read => by
      cases read
      exact ⟨[], rfl, [], rfl⟩
  | item :: rest, _, unambiguous, read => by
      rw [UnambiguousItems] at unambiguous
      simp only [ofJsonItems, Option.bind_eq_bind, Option.bind_eq_some_iff,
        Option.some.injEq] at read
      obtain ⟨value, first, others, tail, rfl⟩ := read
      obtain ⟨head, accepted, document, written⟩ := unambiguous.1.writable digits first
      obtain ⟨normalized, remaining, documents, later⟩ :=
        unambiguousItems_writable digits unambiguous.2 tail
      refine ⟨head :: normalized, ?_, document :: documents, ?_⟩
      · simp only [normalizeItems, bind_ok, pure_ok]
        exact ⟨head, accepted, normalized, remaining, rfl⟩
      · simp only [documentItems, bind_ok, pure_ok]
        exact ⟨document, written, documents, later, rfl⟩

theorem unambiguousMembers_writable (digits : 1 ≤ numbers.maxStrDigits) :
    ∀ {members : List (String × JsonValue)} {pairs : List (String × PythonValue φ)},
    UnambiguousMembers numbers text.nfc (fun written =>
      numbers.finite (numbers.parse written)) members →
    ofJsonMembers numbers members = some pairs → ∃ normalized,
      normalizeMembers text numbers (pairs.map fun pair => (some pair.1, pair.2)) = .ok normalized ∧
      ∃ documents, documentMembers numbers normalized = .ok documents
  | [], _, _, read => by
      cases read
      exact ⟨[], rfl, [], rfl⟩
  | (name, item) :: rest, _, unambiguous, read => by
      rw [UnambiguousMembers] at unambiguous
      simp only [ofJsonMembers, Option.bind_eq_bind, Option.bind_eq_some_iff,
        Option.some.injEq] at read
      obtain ⟨value, first, others, tail, rfl⟩ := read
      obtain ⟨head, accepted, document, written⟩ := unambiguous.1.writable digits first
      obtain ⟨normalized, remaining, documents, later⟩ :=
        unambiguousMembers_writable digits unambiguous.2 tail
      refine ⟨(some (text.nfc name), head) :: normalized, ?_,
        (text.nfc name, document) :: documents, ?_⟩
      · simp only [List.map_cons, normalizeMembers, bind_ok, pure_ok]
        exact ⟨head, accepted, normalized, remaining, rfl⟩
      · simp only [documentMembers, bind_ok, pure_ok]
        exact ⟨document, written, documents, later, rfl⟩

end

theorem unambiguousMembers_iff :
    UnambiguousMembers numbers spelling float members ↔
      ∀ member ∈ members, Unambiguous numbers spelling float member.2 := by
  induction members with
  | nil => simp [UnambiguousMembers]
  | cons member rest ih => simp [UnambiguousMembers, ih]

theorem IsNumber.no_constant {written : String} (number : IsNumber written.toList) :
    written ∉ ["NaN", "Infinity", "-Infinity"] := by
  intro member
  simp only [List.mem_cons, List.not_mem_nil, or_false] at member
  rcases member with rfl | rfl | rfl <;> exact absurd number (by decide)

mutual

/-- A settled value is written unambiguously. -/
theorem settled_unambiguous : ∀ {value : PythonValue φ}
    {document : JsonValue}, value.Settled text numbers →
    value.document numbers = .ok document →
    Unambiguous numbers text.nfc (fun written => numbers.finite (numbers.parse written)) document
  | .null, _, _, written | .bool _, _, _, written | .str _, _, _, written => by
      cases written
      trivial
  | .int value, _, _, written => by
      simp only [PythonValue.document, bind_ok, require_ok, pure_ok] at written
      obtain ⟨_, short, rfl⟩ := written
      rw [Unambiguous]
      refine ⟨IsNumber.no_constant (by simpa using intText_number value), ?_⟩
      simp [intText_integral, readInt_intText short]
  | .float value, _, _, written => by
      simp only [PythonValue.document, bind_ok, require_ok, pure_ok] at written
      obtain ⟨_, finite, rfl⟩ := written
      rw [Unambiguous]
      refine ⟨IsNumber.no_constant (numbers.repr_number value finite), ?_⟩
      simp [repr_fraction finite, numbers.parse_repr value finite, finite]
  | .sequence items, _, settled, written => by
      simp only [PythonValue.document, bind_ok, pure_ok] at written
      obtain ⟨documents, written, rfl⟩ := written
      rw [Unambiguous]
      exact settledItems_unambiguous settled written
  | .mapping members, _, settled, written => by
      simp only [PythonValue.document, bind_ok, pure_ok] at written
      obtain ⟨documents, written, rfl⟩ := written
      rw [PythonValue.Settled] at settled
      have perm := List.perm_insertionSort NamedBefore documents
      have composed := settled_readBackMembers settled.2 written
      have names : (documents.map fun member => text.nfc member.1).Nodup := by
        rw [List.map_congr_left fun member inside => (composed member inside).2]
        exact documentMembers_nodup written settled.1
      rw [Unambiguous, unambiguousMembers_iff]
      refine ⟨(perm.map _).nodup_iff.mpr names, fun member inside => ?_⟩
      exact settledMembers_unambiguous settled.2 written member (perm.subset inside)
  | .other _, _, settled, _ => settled.elim

theorem settledItems_unambiguous : ∀ {items : List (PythonValue φ)} {documents : List JsonValue},
    ItemsSettled text numbers items → documentItems numbers items = .ok documents →
    UnambiguousItems numbers text.nfc (fun written =>
      numbers.finite (numbers.parse written)) documents
  | [], _, _, written => by
      cases written
      trivial
  | item :: rest, _, settled, written => by
      simp only [documentItems, bind_ok, pure_ok, ItemsSettled] at settled written
      obtain ⟨first, head, others, tail, rfl⟩ := written
      exact ⟨settled_unambiguous settled.1 head, settledItems_unambiguous settled.2 tail⟩

theorem settledMembers_unambiguous : ∀ {members : List (Option String × PythonValue φ)}
    {documents : List (String × JsonValue)}, MembersSettled text numbers members →
    documentMembers numbers members = .ok documents → ∀ member ∈ documents,
    Unambiguous numbers text.nfc (fun written => numbers.finite (numbers.parse written)) member.2
  | [], _, _, written => by
      cases written
      simp
  | (none, _) :: _, _, _, written => by cases written
  | (some name, item) :: rest, _, settled, written => by
      simp only [documentMembers, bind_ok, pure_ok, MembersSettled] at settled written
      obtain ⟨first, head, others, tail, rfl⟩ := written
      exact List.forall_mem_cons.mpr ⟨settled_unambiguous settled.2.1 head,
        settledMembers_unambiguous settled.2.2 tail⟩

end

theorem printValue_basic (read : NumbersRead document) :
    ∃ first more, printValue document = first :: more ∧ first.toNat < 128 := by
  cases document with
  | array items => exact ⟨'[', printItems items, rfl, by decide⟩
  | object members => exact ⟨'{', printMembers members, rfl, by decide⟩
  | scalar scalar =>
      cases scalar with
      | null => exact ⟨'n', "ull".toList, rfl, by decide⟩
      | bool flag =>
          cases flag with
          | true => exact ⟨'t', "rue".toList, rfl, by decide⟩
          | false => exact ⟨'f', "alse".toList, rfl, by decide⟩
      | string value => exact ⟨quote, _, rfl, by decide⟩
      | number written =>
          have number : IsNumber written.toList := by simpa only [NumbersRead] using read
          obtain ⟨first, more, split, head⟩ := number.head
          refine ⟨first, more, split, ?_⟩
          rcases head with rfl | digit
          · decide
          · have zero : '0'.toNat = 48 := by decide
            have code : first.toNat - '0'.toNat < 10 := digit_code (by simp [digit])
            omega

theorem canonical_unmarked (read : NumbersRead document) :
    startsWithMark (String.ofList (printValue document)).toByteArray = false := by
  obtain ⟨first, more, split, basic⟩ := printValue_basic read
  rcases utf8EncodeChar_codes first with ⟨_, codes⟩ | ⟨high, _⟩
  · rw [startsWithMark, bytes_of_text, String.toList_ofList, split, List.flatMap_cons]
    obtain ⟨byte, encoded⟩ : ∃ byte, String.utf8EncodeChar first = [byte] := by
      have single : (String.utf8EncodeChar first).length = 1 := by
        simpa using congrArg List.length codes
      exact List.length_eq_one_iff.mp single
    rw [encoded] at codes ⊢
    have code : byte.toNat = first.toNat := by simpa using codes
    have different : (0xEF : UInt8) ≠ byte := by
      rintro rfl
      rw [← code] at basic
      exact absurd basic (by decide)
    rw [List.singleton_append, byteOrderMark, List.isPrefixOf, beq_false_of_ne different,
      Bool.false_and]
  · omega

theorem canonical_transports {value : PythonValue φ} {maxDepth : Nat}
    (shallow : value.nesting ≤ maxDepth)
    (written : canonicalJsonBytes text numbers value = .ok canonical) :
    ∃ document, Transports numbers text.nfc (fun number => numbers.finite (numbers.parse number))
      canonical maxDepth
      document := by
  simp only [canonicalJsonBytes, bind_ok, pure_ok] at written
  obtain ⟨normalized, accepted, document, documented, rfl⟩ := written
  obtain ⟨rfl, settled⟩ := normalize_settled accepted
  have read := (settled_readBack settled (document_written.mp documented)).1
  refine ⟨document, canonical_unmarked read,
    ⟨_, rfl, by rw [String.toList_ofList, parse_print read]⟩, ?_,
    settled_unambiguous settled documented⟩
  rw [document_nesting documented, nfcAll_nesting]
  exact shallow

theorem Transports.loads {maxDepth : Nat}
    (transports : Transports numbers spelling float rawBody maxDepth document)
    (read : PythonValue.ofJson numbers document = some value) :
      jsonLoads numbers rawBody = some value := by
  obtain ⟨decoded, rfl, parsed⟩ := transports.parsed
  simp [jsonLoads, fromUTF8?_eq_some.mpr rfl, parsed, read]

end

open StrictJson in
/-- A body passes exactly when it is one document in UTF-8 without a byte order mark whose nesting
is bounded, whose keys stay distinct once composed and whose numbers can be read and are finite.
Each of them has canonical bytes, which pass under the same bound and are their own canonical
form. -/
theorem strict_transport {φ : Type} (text : TextSupport) (numbers : NumberSupport φ)
    (digits : 1 ≤ numbers.maxStrDigits) (rawBody : ByteArray) (maxDepth : Int) :
    (validateStrictJsonBody text numbers rawBody maxDepth = .ok () ↔ 1 ≤ maxDepth ∧ ∃ document,
      Transports numbers text.nfc (fun written => numbers.finite (numbers.parse written)) rawBody
        maxDepth.toNat document) ∧
    (validateStrictJsonBody text numbers rawBody maxDepth = .ok () → ∃ value canonical,
      jsonLoads numbers rawBody = some value ∧ canonicalJsonBytes text numbers value =
        .ok canonical ∧
      validateStrictJsonBody text numbers canonical maxDepth = .ok () ∧
      ∃ again, jsonLoads numbers canonical = some again ∧
        canonicalJsonBytes text numbers again = .ok canonical) := by
  have exactly : ∀ body, validateStrictJsonBody text numbers body maxDepth = .ok () ↔
    1 ≤ maxDepth ∧ ∃ document,
      Transports numbers text.nfc (fun written => numbers.finite (numbers.parse written)) body
        maxDepth.toNat
        document := by
    intro body
    rw [validateStrictJsonBody_ok]
    refine and_congr_right fun _ => exists_congr fun document =>
      and_iff_left_of_imp fun transports => ?_
    obtain ⟨value, read, _⟩ := transports.unambiguous.read
    exact ⟨value, read⟩
  refine ⟨exactly rawBody, fun passed => ?_⟩
  obtain ⟨positive, document, transports⟩ := (exactly rawBody).mp passed
  obtain ⟨value, read, levels⟩ := transports.unambiguous.read
  obtain ⟨normalized, accepted, written, documented⟩ := transports.unambiguous.writable digits read
  have canonical : canonicalJsonBytes text numbers value =
      .ok (String.ofList (printValue written)).toByteArray := by
    simp only [canonicalJsonBytes, bind_ok, pure_ok]
    exact ⟨normalized, accepted, written, documented, rfl⟩
  have shallow : value.nesting ≤ maxDepth.toNat := levels ▸ transports.shallow
  exact ⟨value, _, transports.loads read, canonical,
    (exactly _).mpr ⟨positive, canonical_transports shallow canonical⟩,
    canonicalJsonBytes_decoded canonical⟩

namespace OneBody

/-- An array with one half under a decomposed key. -/
def document : JsonValue := .object [(decomposedAcute, .array [.scalar (.number "0.5")])]

def rawBody : ByteArray := (String.ofList (printValue document)).toByteArray

theorem transports : Transports halfSupport acuteSupport.nfc
    (fun written => halfSupport.finite (halfSupport.parse written)) rawBody 2 document := by
  have read : NumbersRead document := by
    simp only [document, NumbersRead, MembersRead, ItemsRead]
    exact ⟨⟨by decide +kernel, trivial⟩, trivial⟩
  refine ⟨canonical_unmarked read, ⟨_, rfl, by rw [String.toList_ofList, parse_print read]⟩,
    by decide, ?_⟩
  simp only [document, Unambiguous, UnambiguousMembers, UnambiguousItems]
  exact ⟨by simp, ⟨⟨by decide, by decide +kernel⟩, trivial⟩, trivial⟩

open StrictJson in
theorem strict_transport_half : ∃ value canonical,
    canonicalJsonBytes acuteSupport halfSupport value = .ok canonical ∧
    validateStrictJsonBody acuteSupport halfSupport canonical 2 = .ok () := by
  obtain ⟨exactly, forms⟩ := strict_transport acuteSupport halfSupport (by decide) rawBody 2
  obtain ⟨value, canonical, _, written, passes, _⟩ :=
    forms (exactly.mpr ⟨by decide, document, transports⟩)
  exact ⟨value, canonical, written, passes⟩

end OneBody

end MarketingAgents
