import Mathlib
import MarketingAgents.Security.TransportCanonicity

namespace MarketingAgents

open Library
open Library.JsonText

/-! # Webhook envelopes

An authenticated webhook body is one object of an event identifier and an
input.  The mapper accepts nothing else, and its canonical spelling of an
accepted envelope is mapped to the same event.
-/

namespace WebhookSources

def maxWebhookBodyBytes : Nat := 1048576

def maxWebhookJsonDepth : Nat := 64

structure WebhookEnvelopeMappingError where
  code : String
  message : String
  pointer : Option String := none
deriving DecidableEq, Repr

def mappingError : WebhookEnvelopeMappingError where
  code := "webhook_envelope_invalid"
  message := "webhook envelope is invalid"

/-- The input of an event in its frozen form. -/
structure MappedWebhookEnvelope (φ : Type) where
  eventId : String
  inputPayload : PythonValue φ

section

variable {φ : Type} (text : TextSupport) (numbers : NumberSupport φ)

def refused : Rejection where
  code := mappingError.code
  message := mappingError.message

def rejectConstant (_ : String) : Except Rejection (PythonValue φ) := .error refused

/-- Keys must be distinct as they are written. -/
def strictObject (pairs : List (String × PythonValue φ)) : Except Rejection (PythonValue φ) :=
  objectOfPairs id refused pairs [] []

def hooks : JsonHooks φ where
  objectPairsHook := strictObject
  parseConstant := rejectConstant
  parseFloat value := .ok (.float (numbers.parse value))

def MappedWebhookEnvelope.create (eventId : String) (inputPayload : PythonValue φ) :
    Except Rejection (MappedWebhookEnvelope φ) := do
  requireId eventId "mapped webhook event ID"
  let frozen ← frozenJsonMapping text numbers inputPayload "mapped webhook input payload"
  return { eventId, inputPayload := frozen }

/-- The event of a value that was read.  Only an input that is no object is pointed at. -/
def envelopeOf (value : PythonValue φ) :
    Except WebhookEnvelopeMappingError (MappedWebhookEnvelope φ) :=
  if value.hasExactly ["eventId", "input"] then
    match value.item? "eventId", value.item? "input" with
    | some (.str eventId), some inputPayload =>
        if (requireId eventId "webhook event ID").toOption = some () then
          if inputPayload.isMapping then
            match MappedWebhookEnvelope.create text numbers eventId inputPayload with
            | .ok mapped => .ok mapped
            | .error _ => .error mappingError
          else .error { mappingError with pointer := some "/input" }
        else .error mappingError
    | _, _ => .error mappingError
  else .error mappingError

/-- `StrictJsonWebhookEnvelopeMapper.parse`.  A body with an escaped lone surrogate, which
no text here holds, is refused without a pointer; the mapper refuses it too, but may
point at its input. -/
def parse (rawBody : ByteArray) : Except WebhookEnvelopeMappingError (MappedWebhookEnvelope φ) :=
  if rawBody.size = 0 ∨ maxWebhookBodyBytes < rawBody.size ∨ startsWithMark rawBody = true ∨
      depthIsBounded rawBody (maxWebhookJsonDepth + 1) = false then .error mappingError
  else
    match (String.fromUTF8? rawBody).bind fun decoded =>
      (jsonLoadsWith numbers (hooks numbers) decoded).toOption with
    | some value => envelopeOf text numbers value
    | none => .error mappingError

end

section

variable {φ : Type} {text : TextSupport} {numbers : NumberSupport φ}

theorem hooks_admits (numbers : NumberSupport φ) :
    (hooks numbers).Admits numbers id fun _ => true where
  object pairs value := by
    have kept : strictObject pairs = .ok value ↔ _ := objectOfPairs_ok (by simp)
    simpa [hooks] using kept
  constant name value := by simp [hooks, rejectConstant]
  fractional written value := by
    simp only [hooks, Except.ok.injEq, true_and]
    exact eq_comm

theorem loads_ok :
    ((String.fromUTF8? rawBody).bind fun decoded =>
      (jsonLoadsWith numbers (hooks numbers) decoded).toOption) = some value ↔
      ∃ (decoded : String) (document : JsonValue), rawBody = decoded.toByteArray ∧
      JsonText.parse decoded.toList = some document ∧
        Unambiguous numbers id (fun _ => true) document ∧
          PythonValue.ofJson numbers document = some value := by
  simp only [Option.bind_eq_some_iff, fromUTF8?_eq_some, toOption_eq_some, jsonLoadsWith, bind_ok,
    requireSome_ok, loadsDocument_ok (hooks_admits numbers)]
  constructor
  · rintro ⟨decoded, same, document, parsed, unambiguous, read⟩
    exact ⟨decoded, document, same, parsed, unambiguous, read⟩
  · rintro ⟨decoded, document, same, parsed, unambiguous, read⟩
    exact ⟨decoded, same, document, parsed, unambiguous, read⟩

/-- A body of bounded size that transports a document. -/
def Delivers (numbers : NumberSupport φ) (rawBody : ByteArray) (document : JsonValue) : Prop :=
  rawBody.size ≤ maxWebhookBodyBytes ∧
    Transports numbers id (fun _ => true) rawBody (maxWebhookJsonDepth + 1) document

theorem parse_eq {result : Except WebhookEnvelopeMappingError (MappedWebhookEnvelope φ)} :
    parse text numbers rawBody = result ↔
      (∃ document value, Delivers numbers rawBody document ∧
        PythonValue.ofJson numbers document = some value ∧
        envelopeOf text numbers value = result) ∨
      ((∀ document, ¬Delivers numbers rawBody document) ∧ result = .error mappingError) := by
  rw [parse]
  split
  case isTrue refusal =>
    have undelivered : ∀ document, ¬Delivers numbers rawBody document := by
      rintro document ⟨small, unmarked, ⟨decoded, rfl, parsed⟩, shallow, _⟩
      rcases refusal with empty | large | marked | deep
      · obtain rfl : decoded = "" :=
          String.toByteArray_inj.mp (ByteArray.ext_iff.mpr (Array.eq_empty_of_size_eq_zero empty))
        cases parsed
      · omega
      · rw [unmarked] at marked
        cases marked
      · rw [(depthIsBounded_iff parsed _).mpr shallow] at deep
        cases deep
    constructor
    · rintro rfl
      exact .inr ⟨undelivered, rfl⟩
    · rintro (⟨document, _, delivers, _⟩ | ⟨_, rfl⟩)
      · exact absurd delivers (undelivered document)
      · rfl
  case isFalse passing =>
    simp only [not_or, Bool.not_eq_true, Bool.not_eq_false] at passing
    obtain ⟨_, small, unmarked, bounded⟩ := passing
    cases loaded : (String.fromUTF8? rawBody).bind fun decoded =>
        (jsonLoadsWith numbers (hooks numbers) decoded).toOption with
    | some value =>
        obtain ⟨decoded, document, rfl, parsed, unambiguous, read⟩ := loads_ok.mp loaded
        have delivers : Delivers numbers decoded.toByteArray document :=
          ⟨Nat.le_of_not_lt small, unmarked, ⟨decoded, rfl, parsed⟩,
            (depthIsBounded_iff parsed _).mp bounded, unambiguous⟩
        constructor
        · intro same
          exact .inl ⟨document, value, delivers, read, same⟩
        · rintro (⟨other, found, ⟨_, _, ⟨again, same, otherParsed⟩, _⟩, otherRead, rfl⟩ |
            ⟨undelivered, _⟩)
          · obtain rfl := String.toByteArray_inj.mp same
            obtain rfl := Option.mem_unique parsed otherParsed
            rw [Option.mem_unique read otherRead]
          · exact absurd delivers (undelivered document)
    | none =>
        have undelivered : ∀ document, ¬Delivers numbers rawBody document := by
          rintro document ⟨_, _, ⟨decoded, same, parsed⟩, _, unambiguous⟩
          obtain ⟨value, read, _⟩ := unambiguous.read
          have found := loads_ok.mpr ⟨decoded, document, same, parsed, unambiguous, read⟩
          rw [loaded] at found
          cases found
        constructor
        · rintro rfl
          exact .inr ⟨undelivered, rfl⟩
        · rintro (⟨document, _, delivers, _⟩ | ⟨_, rfl⟩)
          · exact absurd delivers (undelivered document)
          · rfl

/-- An event identifier and an input, in either order. -/
def IsEnvelope (eventId : String) (input document : JsonValue) : Prop :=
  document = .object [("eventId", .scalar (.string eventId)), ("input", input)] ∨
    document = .object [("input", input), ("eventId", .scalar (.string eventId))]

theorem ofJson_str :
    PythonValue.ofJson numbers document = some (.str written) ↔
      document = .scalar (.string written) := by
  cases document with
  | array items => simp [PythonValue.ofJson]
  | object members => simp [PythonValue.ofJson]
  | scalar scalar =>
      cases scalar with
      | null | bool | string => simp [PythonValue.ofJson]
      | number digits =>
          simp only [PythonValue.ofJson]
          split <;> simp

theorem ofJson_mapping (read : PythonValue.ofJson numbers document = some (.mapping members)) :
    ∃ named pairs, document = .object named ∧ ofJsonMembers numbers named = some pairs ∧
      members = dictionary pairs := by
  cases document with
  | array items => simp [PythonValue.ofJson] at read
  | object named =>
      simp only [PythonValue.ofJson, Option.map_eq_some_iff, PythonValue.mapping.injEq] at read
      obtain ⟨pairs, found, rfl⟩ := read
      exact ⟨named, pairs, rfl, found, rfl⟩
  | scalar scalar =>
      cases scalar with
      | null | bool | string => simp [PythonValue.ofJson] at read
      | number digits =>
          simp only [PythonValue.ofJson] at read
          split at read <;> simp at read

theorem ofJsonMembers_pair {first second : String × JsonValue} :
    ofJsonMembers numbers [first, second] = some pairs ↔ ∃ left right,
      PythonValue.ofJson numbers first.2 = some left ∧
      PythonValue.ofJson numbers second.2 = some right ∧
        pairs = [(first.1, left), (second.1, right)] := by
  simp only [ofJsonMembers, Option.bind_eq_bind, Option.bind_eq_some_iff, Option.some.injEq,
    exists_eq_left']
  constructor
  · rintro ⟨left, one, _, ⟨right, two, rfl⟩, rfl⟩
    exact ⟨left, right, one, two, rfl⟩
  · rintro ⟨left, right, one, two, rfl⟩
    exact ⟨left, one, _, ⟨right, two, rfl⟩, rfl⟩

theorem ofJson_pair {first second : String} (different : first ≠ second)
    (readLeft : PythonValue.ofJson numbers one = some left)
    (readRight : PythonValue.ofJson numbers two = some right) :
    PythonValue.ofJson numbers (.object [(first, one), (second, two)]) =
      some (.mapping [(some first, left), (some second, right)]) := by
  have pairs : ofJsonMembers numbers [(first, one), (second, two)] =
    some [(first, left), (second, right)] :=
    ofJsonMembers_pair.mpr ⟨left, right, readLeft, readRight, rfl⟩
  rw [PythonValue.ofJson, pairs, Option.map_some, dictionary_nodup (by simpa using different)]
  rfl

theorem envelope_names {names : List String} (distinct : names.Nodup)
    (both : "eventId" ∈ names ∧ "input" ∈ names)
    (only : ∀ name ∈ names, name = "eventId" ∨ name = "input") :
    names = ["eventId", "input"] ∨ names = ["input", "eventId"] := by
  have perm : names.Perm ["eventId", "input"] := by
    refine (List.perm_ext_iff_of_nodup distinct (by decide)).mpr fun name => ?_
    constructor
    · intro inside
      simpa using only name inside
    · intro inside
      rcases List.mem_pair.mp inside with rfl | rfl
      · exact both.1
      · exact both.2
  obtain ⟨first, second, rfl⟩ := List.length_eq_two.mp perm.length_eq
  have different : first ≠ second := by simpa using distinct
  rcases only first (by simp) with rfl | rfl <;> rcases only second (by simp) with rfl | rfl
  · exact absurd rfl different
  · exact .inl rfl
  · exact .inr rfl
  · exact absurd rfl different

/-- A document with exactly the two members is an envelope. -/
theorem envelope_members {value input : PythonValue φ} {eventId : String}
    (unambiguous : Unambiguous numbers id (fun _ => true) document)
    (read : PythonValue.ofJson numbers document = some value) :
    (value.hasExactly ["eventId", "input"] = true ∧ value.item? "eventId" = some (.str eventId) ∧
        value.item? "input" = some input) ↔
      ∃ written, IsEnvelope eventId written document ∧
        PythonValue.ofJson numbers written = some input := by
  constructor
  · rintro ⟨exactly, identified, given⟩
    cases value with
    | null | bool | int | float | str | sequence | other => cases exactly
    | mapping members =>
        obtain ⟨named, pairs, rfl, found, rfl⟩ := ofJson_mapping read
        have distinct : (pairs.map Prod.fst).Nodup := by
          rw [ofJsonMembers_names found]
          exact unambiguous.names
        rw [dictionary_nodup distinct] at exactly identified given
        simp only [PythonValue.hasExactly, Bool.and_eq_true, List.all_eq_true,
          decide_eq_true_eq] at exactly
        have names : named.map Prod.fst = ["eventId", "input"] ∨
            named.map Prod.fst = ["input", "eventId"] := by
          rw [← ofJsonMembers_names found]
          refine envelope_names distinct ⟨?_, ?_⟩ fun name inside => ?_
          · simpa [List.map_map, Function.comp_def] using exactly.1 "eventId" (by simp)
          · simpa [List.map_map, Function.comp_def] using exactly.1 "input" (by simp)
          · obtain ⟨pair, member, rfl⟩ := List.mem_map.mp inside
            simpa using exactly.2 (some pair.1, pair.2) (List.mem_map.mpr ⟨pair, member, rfl⟩)
        have two : named.length = 2 := by
          rcases names with names | names <;> simpa using congrArg List.length names
        obtain ⟨⟨first, one⟩, ⟨second, other⟩, rfl⟩ := List.length_eq_two.mp two
        obtain ⟨left, right, readLeft, readRight, rfl⟩ := ofJsonMembers_pair.mp found
        rcases names with names | names
        · obtain ⟨rfl, rfl⟩ : first = "eventId" ∧ second = "input" := by simpa using names
          obtain rfl : left = .str eventId := by simpa [PythonValue.item?] using identified
          obtain rfl : right = input := by simpa [PythonValue.item?] using given
          obtain rfl : one = .scalar (.string eventId) := ofJson_str.mp readLeft
          exact ⟨other, .inl rfl, readRight⟩
        · obtain ⟨rfl, rfl⟩ : first = "input" ∧ second = "eventId" := by simpa using names
          obtain rfl : right = .str eventId := by simpa [PythonValue.item?] using identified
          obtain rfl : left = input := by simpa [PythonValue.item?] using given
          obtain rfl : other = .scalar (.string eventId) := ofJson_str.mp readRight
          exact ⟨one, .inr rfl, readLeft⟩
  · rintro ⟨written, rfl | rfl, given⟩
    · rw [ofJson_pair (by decide) rfl given] at read
      obtain rfl := Option.some.inj read
      exact ⟨rfl, rfl, rfl⟩
    · rw [ofJson_pair (by decide) given rfl] at read
      obtain rfl := Option.some.inj read
      exact ⟨rfl, rfl, rfl⟩

theorem create_ok :
    MappedWebhookEnvelope.create text numbers eventId inputPayload = .ok mapped ↔
      requireId eventId "mapped webhook event ID" = .ok () ∧ mapped.eventId = eventId ∧
        frozenJsonMapping text numbers inputPayload "mapped webhook input payload" =
          .ok mapped.inputPayload := by
  simp only [MappedWebhookEnvelope.create, bind_ok, pure_ok]
  constructor
  · rintro ⟨_, stable, frozen, accepted, rfl⟩
    exact ⟨stable, rfl, accepted⟩
  · rintro ⟨stable, rfl, accepted⟩
    exact ⟨(), stable, _, accepted, rfl⟩

theorem frozen_isMapping (accepted : frozenJsonMapping text numbers value fieldName = .ok frozen) :
      value.isMapping = true := by
  cases value with
  | mapping => rfl
  | null | bool | int | float | str | sequence | other =>
      simp [frozenJsonMapping, reject_ok] at accepted

theorem envelopeOf_ok :
    envelopeOf text numbers value = .ok mapped ↔ ∃ input,
      (value.hasExactly ["eventId", "input"] = true ∧
        value.item? "eventId" = some (.str mapped.eventId) ∧
        value.item? "input" = some input) ∧ requireId mapped.eventId "webhook event ID" = .ok () ∧
        frozenJsonMapping text numbers input "mapped webhook input payload" =
          .ok mapped.inputPayload := by
  constructor
  · intro accepted
    rw [envelopeOf] at accepted
    split at accepted
    case isFalse => cases accepted
    case isTrue exactly =>
      split at accepted
      case h_2 => cases accepted
      case h_1 eventId inputPayload identified given =>
        split at accepted
        case isFalse => cases accepted
        case isTrue stable =>
          split at accepted
          case isFalse => cases accepted
          case isTrue =>
            split at accepted
            case h_2 => cases accepted
            case h_1 created formed =>
              cases accepted
              obtain ⟨_, rfl, frozen⟩ := create_ok.mp formed
              exact ⟨inputPayload, ⟨exactly, identified, given⟩, toOption_eq_some.mp stable, frozen⟩
  · rintro ⟨input, ⟨exactly, identified, given⟩, stable, frozen⟩
    have created : MappedWebhookEnvelope.create text numbers mapped.eventId input = .ok mapped :=
      create_ok.mpr ⟨requireId_ok _ stable, rfl, frozen⟩
    simp only [envelopeOf, exactly, identified, given, toOption_eq_some.mpr stable,
      frozen_isMapping frozen, created, if_true]

mutual

theorem unambiguous_spelled {spelling : String → String} {float : String → Bool} :
    ∀ {document : JsonValue},
    Unambiguous numbers spelling float document → Unambiguous numbers id (fun _ => true) document
  | .scalar .null, _ | .scalar (.bool _), _ | .scalar (.string _), _ => trivial
  | .scalar (.number written), unambiguous => by
      rw [Unambiguous] at unambiguous ⊢
      refine ⟨unambiguous.1, ?_⟩
      by_cases whole : integral written = true
      · simpa [whole] using unambiguous.2
      · simp [whole]
  | .array items, unambiguous => by
      rw [Unambiguous] at unambiguous ⊢
      exact unambiguousItems_spelled unambiguous
  | .object members, unambiguous => by
      have names := unambiguous.names
      rw [Unambiguous] at unambiguous ⊢
      exact ⟨names, unambiguousMembers_spelled unambiguous.2⟩

theorem unambiguousItems_spelled {spelling : String → String} {float : String → Bool} :
    ∀ {items : List JsonValue}, UnambiguousItems numbers spelling float items →
      UnambiguousItems numbers id (fun _ => true) items
  | [], _ => trivial
  | _ :: _, unambiguous => by
      rw [UnambiguousItems] at unambiguous ⊢
      exact ⟨unambiguous_spelled unambiguous.1, unambiguousItems_spelled unambiguous.2⟩

theorem unambiguousMembers_spelled {spelling : String → String} {float : String → Bool} :
    ∀ {members : List (String × JsonValue)}, UnambiguousMembers numbers spelling float members →
      UnambiguousMembers numbers id (fun _ => true) members
  | [], _ => trivial
  | _ :: _, unambiguous => by
      rw [UnambiguousMembers] at unambiguous ⊢
      exact ⟨unambiguous_spelled unambiguous.1, unambiguousMembers_spelled unambiguous.2⟩

end

theorem frozenJsonMapping_settled
    (accepted : frozenJsonMapping text numbers value fieldName = .ok frozen) :
    ∃ document, frozen.document numbers = .ok document ∧ frozen.Settled text numbers ∧
      PythonValue.ofJson numbers document = some frozen ∧ frozen.nesting = value.nesting ∧
      ∀ otherName, frozenJsonMapping text numbers frozen otherName = .ok frozen := by
  cases value with
  | null | bool | int | float | str | sequence | other =>
      simp [frozenJsonMapping, reject_ok] at accepted
  | mapping members =>
      simp only [frozenJsonMapping, bind_ok, requireSome_ok] at accepted
      obtain ⟨bytes, written, loaded⟩ := accepted
      obtain ⟨normal, document, normalized, documented, rfl⟩ := canonicalJsonBytes_ok.mp written
      obtain ⟨composed, normalSettled⟩ := normalize_settled normalized
      obtain ⟨read, decoded, ofJson, settled, rewritten⟩ :=
        settled_readBack normalSettled documented
      obtain rfl : decoded = frozen :=
        Option.some.inj (ofJson.symm.trans ((jsonLoads_written read).symm.trans loaded))
      have levels : decoded.nesting = normal.nesting := by
        rw [← document_nesting (document_written.mpr rewritten),
          document_nesting (document_written.mpr documented)]
      have mapping : ∃ fields, decoded = .mapping fields := by
        subst composed
        obtain ⟨documents, rfl, _⟩ := documented
        cases decoded with
        | mapping fields => exact ⟨fields, rfl⟩
        | null | bool | int | float | str | sequence | other =>
            simp [PythonValue.WrittenAs] at rewritten
      refine ⟨document, document_written.mpr rewritten, settled, ofJson,
        by rw [levels, composed, nfcAll_nesting], ?_⟩
      intro otherName
      obtain ⟨fields, rfl⟩ := mapping
      simp only [frozenJsonMapping, bind_ok, requireSome_ok]
      exact ⟨_, canonicalJsonBytes_ok.mpr ⟨_, document, settled_normalize settled, rewritten, rfl⟩,
        (jsonLoads_written read).trans ofJson⟩

/-- The envelope of a mapped event as a value. -/
def MappedWebhookEnvelope.spelled (mapped : MappedWebhookEnvelope φ) : PythonValue φ :=
  .mapping [(some "eventId", .str mapped.eventId), (some "input", mapped.inputPayload)]

theorem spelled_document {mapped : MappedWebhookEnvelope φ} (keeps : text.KeepsAscii)
    (stable : requireId mapped.eventId "webhook event ID" = .ok ())
    (settled : mapped.inputPayload.Settled text numbers)
    (written : mapped.inputPayload.document numbers = .ok document) :
    mapped.spelled.Settled text numbers ∧ mapped.spelled.document numbers =
      .ok (.object [("eventId", .scalar (.string mapped.eventId)), ("input", document)]) := by
  constructor
  · refine ⟨show [some "eventId", some "input"].Nodup by decide,
      ⟨⟨rfl, ?_⟩, ?_, ⟨rfl, ?_⟩, settled, trivial⟩⟩
    · exact congrArg some (keeps _ (plain_of_all (by decide)))
    · exact keeps _ (requireId_plain stable).1
    · exact congrArg some (keeps _ (plain_of_all (by decide)))
  · have sorted : [("eventId", .scalar (.string mapped.eventId)),
      ("input", document)].insertionSort NamedBefore =
        [("eventId", JsonValue.scalar (.string mapped.eventId)), ("input", document)] := by
      refine List.Pairwise.insertionSort_eq ?_
      simp only [List.pairwise_pair, NamedBefore]
      decide
    simp only [MappedWebhookEnvelope.spelled, PythonValue.document, documentMembers,
      bind_ok, pure_ok]
    exact ⟨_, ⟨_, rfl, _, ⟨document, written, [], rfl, rfl⟩, rfl⟩, by rw [sorted]⟩

theorem parse_ok :
    parse text numbers rawBody = .ok mapped ↔ ∃ document input value,
      Delivers numbers rawBody document ∧
      IsEnvelope mapped.eventId input document ∧
      requireId mapped.eventId "webhook event ID" = .ok () ∧
      PythonValue.ofJson numbers input = some value ∧
      frozenJsonMapping text numbers value "mapped webhook input payload" =
        .ok mapped.inputPayload := by
  rw [parse_eq]
  constructor
  · rintro (⟨document, value, delivers, read, accepted⟩ | ⟨_, impossible⟩)
    · obtain ⟨input, members, stable, frozen⟩ := envelopeOf_ok.mp accepted
      obtain ⟨written, envelope, given⟩ := (envelope_members delivers.2.unambiguous read).mp members
      exact ⟨document, written, input, delivers, envelope, stable, given, frozen⟩
    · cases impossible
  · rintro ⟨document, input, value, delivers, envelope, stable, given, frozen⟩
    obtain ⟨whole, read, _⟩ := delivers.2.unambiguous.read
    have members := (envelope_members delivers.2.unambiguous read).mpr ⟨input, envelope, given⟩
    exact .inl ⟨document, whole, delivers, read, envelopeOf_ok.mpr ⟨value, members, stable, frozen⟩⟩

theorem IsEnvelope.nesting (envelope : IsEnvelope eventId input document) :
    JsonText.nesting document = JsonText.nesting input + 1 := by
  rcases envelope with rfl | rfl <;> simp [JsonText.nesting, membersNesting]

theorem IsEnvelope.unambiguous {spelling : String → String}
    {float : String → Bool} (envelope : IsEnvelope eventId input document)
    (unambiguous : Unambiguous numbers spelling float document) :
      Unambiguous numbers spelling float input := by
  rcases envelope with rfl | rfl
  · exact unambiguous.2.2.1
  · exact unambiguous.2.1

theorem parse_spelled {mapped : MappedWebhookEnvelope φ} (keeps : text.KeepsAscii)
    (stable : requireId mapped.eventId "webhook event ID" = .ok ())
    (frozen : frozenJsonMapping text numbers value "mapped webhook input payload" =
      .ok mapped.inputPayload)
    (shallow : value.nesting ≤ maxWebhookJsonDepth) : ∃ canonical,
    canonicalJsonBytes text numbers mapped.spelled = .ok canonical ∧
      (canonical.size ≤ maxWebhookBodyBytes → parse text numbers canonical = .ok mapped) := by
  obtain ⟨document, written, settled, read, levels, again⟩ := frozenJsonMapping_settled frozen
  obtain ⟨whole, documented⟩ := spelled_document keeps stable settled written
  have canonical : canonicalJsonBytes text numbers mapped.spelled = .ok (String.ofList (printValue
      (.object [("eventId", .scalar (.string mapped.eventId)),
        ("input", document)]))).toByteArray :=
    canonicalJsonBytes_ok.mpr ⟨_, _, settled_normalize whole, document_written.mp documented, rfl⟩
  have envelope : IsEnvelope mapped.eventId document
      (.object [("eventId", .scalar (.string mapped.eventId)), ("input", document)]) := .inl rfl
  have readBack := (settled_readBack whole (document_written.mp documented)).1
  refine ⟨_, canonical, fun small => parse_ok.mpr
    ⟨_, document, mapped.inputPayload, ⟨small, ?_⟩, envelope, stable, read, again _⟩⟩
  refine ⟨canonical_unmarked readBack, ⟨_, rfl, by rw [String.toList_ofList, parse_print readBack]⟩,
    ?_, unambiguous_spelled (settled_unambiguous whole documented)⟩
  rw [envelope.nesting, document_nesting written, levels]
  exact Nat.succ_le_succ shallow

/-- A delivered body is mapped exactly if it is an envelope with a stable identifier whose input can
be frozen; a mapped input is nested at most as deeply as webhooks may be; and the canonical spelling
of a mapped event, unless it is too long, is mapped to it. -/
theorem webhook_envelopes {φ : Type} (text : TextSupport) (numbers : NumberSupport φ)
    (keeps : text.KeepsAscii) (rawBody : ByteArray) :
    (∀ mapped, parse text numbers rawBody = .ok mapped ↔
      ∃ document input value, Delivers numbers rawBody document ∧
      IsEnvelope mapped.eventId input document ∧
      requireId mapped.eventId "webhook event ID" = .ok () ∧
      PythonValue.ofJson numbers input = some value ∧
      frozenJsonMapping text numbers value "mapped webhook input payload" =
        .ok mapped.inputPayload) ∧
    ∀ mapped, parse text numbers rawBody = .ok mapped →
      mapped.inputPayload.nesting ≤ maxWebhookJsonDepth ∧
      ∃ canonical, canonicalJsonBytes text numbers mapped.spelled = .ok canonical ∧
        (canonical.size ≤ maxWebhookBodyBytes → parse text numbers canonical = .ok mapped) := by
  refine ⟨fun mapped => parse_ok, fun mapped accepted => ?_⟩
  · obtain ⟨document, input, value, delivers, envelope, stable, given, frozen⟩ :=
      parse_ok.mp accepted
    obtain ⟨other, read, levels⟩ := (envelope.unambiguous delivers.2.unambiguous).read
    obtain rfl := Option.mem_unique given read
    have shallow : value.nesting ≤ maxWebhookJsonDepth := by
      have bound := delivers.2.shallow
      rw [envelope.nesting] at bound
      omega
    obtain ⟨_, _, _, _, kept, _⟩ := frozenJsonMapping_settled frozen
    exact ⟨kept ▸ shallow, parse_spelled keeps stable frozen shallow⟩

end

namespace OneEnvelope

/-- An event whose input stands in front of its identifier. -/
def document : JsonValue :=
  .object [("input", .object [("flag", .scalar (.bool true))]),
    ("eventId", .scalar (.string "event-1"))]

def rawBody : ByteArray := (String.ofList (printValue document)).toByteArray

theorem delivers : Delivers halfSupport rawBody document := by
  have read : NumbersRead document := by
    simp only [document, NumbersRead, MembersRead]
    exact ⟨⟨trivial, trivial⟩, trivial, trivial⟩
  have shallow : nesting document ≤ maxWebhookJsonDepth + 1 := by decide
  refine ⟨by decide +kernel, canonical_unmarked read,
    ⟨_, rfl, by rw [String.toList_ofList, parse_print read]⟩, shallow, ?_⟩
  simp [document, Unambiguous, UnambiguousMembers]

theorem stable : requireId "event-1" "webhook event ID" = .ok () := by decide

theorem frozen : ∃ payload, frozenJsonMapping acuteSupport halfSupport
    (.mapping [(some "flag", .bool true)]) "mapped webhook input payload" = .ok payload := by
  have settled : (PythonValue.mapping [(some "flag", .bool true)]).Settled acuteSupport
    halfSupport :=
    ⟨by simp, ⟨rfl, congrArg some (acuteSupport_keepsAscii _ (plain_of_all (by decide)))⟩,
      trivial, trivial⟩
  have written : canonicalJsonBytes acuteSupport halfSupport
    (.mapping [(some "flag", .bool true)]) =
      .ok (String.ofList (printValue (.object [("flag", .scalar (.bool true))]))).toByteArray :=
    canonicalJsonBytes_ok.mpr ⟨_, _, settled_normalize settled,
      ⟨[("flag", .scalar (.bool true))], rfl, rfl⟩, rfl⟩
  obtain ⟨payload, loaded, _⟩ := canonicalJsonBytes_decoded written
  refine ⟨payload, ?_⟩
  simp only [frozenJsonMapping, bind_ok, requireSome_ok]
  exact ⟨_, written, loaded⟩

theorem webhook_envelopes_flag : ∃ mapped, parse acuteSupport halfSupport rawBody = .ok mapped ∧
    mapped.eventId = "event-1" := by
  obtain ⟨exactly, _⟩ := webhook_envelopes acuteSupport halfSupport acuteSupport_keepsAscii rawBody
  obtain ⟨payload, accepted⟩ := frozen
  have mapped := (exactly { eventId := "event-1", inputPayload := payload }).mpr
    ⟨document, _, _, delivers, .inr rfl, stable, rfl, accepted⟩
  exact ⟨_, mapped, rfl⟩

end OneEnvelope

end WebhookSources

end MarketingAgents
