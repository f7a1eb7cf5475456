import Mathlib
import MarketingAgents.Domain.CanonicalForm
import MarketingAgents.Library.JsonDepth
import MarketingAgents.Services.CursorCanonicity

namespace MarketingAgents

open Library
open Library.JsonText

/-! # Strict JSON transport

Reading a JSON text with hooks for its objects, constants and floats, and the
gate in front of every request body: one bounded scan of the brackets, then the
hooks that refuse whatever is ambiguous.
-/

/-- What a reader does with the pairs of an object and with numbers that are no integers. -/
structure JsonHooks (φ : Type) where
  objectPairsHook : List (String × PythonValue φ) → Except Rejection (PythonValue φ)
  parseConstant : String → Except Rejection (PythonValue φ)
  parseFloat : String → Except Rejection (PythonValue φ)

section

variable {φ : Type} (numbers : NumberSupport φ) (hooks : JsonHooks φ)

mutual

/-- The value of a document, from its innermost objects outwards. -/
def loadsDocument : JsonValue → Except Rejection (PythonValue φ)
  | .scalar .null => .ok .null
  | .scalar (.bool value) => .ok (.bool value)
  | .scalar (.number written) =>
      if written ∈ ["NaN", "Infinity", "-Infinity"] then hooks.parseConstant written
      else if integral written then do
        let value ← requireSome (readInt numbers written)
          "ValueError" "integer exceeds the limit for integer string conversion"
        return .int value
      else hooks.parseFloat written
  | .scalar (.string value) => .ok (.str value)
  | .array items => do
      let values ← loadsItems items
      return .sequence values
  | .object members => do
      let pairs ← loadsMembers members
      hooks.objectPairsHook pairs

def loadsItems : List JsonValue → Except Rejection (List (PythonValue φ))
  | [] => .ok []
  | item :: rest => do
      let value ← loadsDocument item
      let others ← loadsItems rest
      return value :: others

def loadsMembers : List (String × JsonValue) → Except Rejection (List (String × PythonValue φ))
  | [] => .ok []
  | (name, item) :: rest => do
      let value ← loadsDocument item
      let others ← loadsMembers rest
      return (name, value) :: others

end

/-- A decoded text as a value. -/
def jsonLoadsWith (decoded : String) : Except Rejection (PythonValue φ) := do
  let document ← requireSome (parse decoded.toList) "JSONDecodeError" "invalid JSON"
  loadsDocument numbers hooks document

/-- Give a key its value, in its old place where it has one. -/
def assign (result : List (Option String × PythonValue φ)) (key : String) (value : PythonValue φ) :
    List (Option String × PythonValue φ) :=
  if result.any fun entry => entry.1 = some key then
    result.map fun entry => if entry.1 = some key then (some key, value) else entry
  else result ++ [(some key, value)]

/-- The pairs of an object under keys that are all spelled differently. -/
def objectOfPairs (spelling : String → String) (refused : Rejection) :
    List (String × PythonValue φ) → List (Option String × PythonValue φ) → List String →
      Except Rejection (PythonValue φ)
  | [], result, _ => .ok (.mapping result)
  | (key, value) :: rest, result, spelled =>
      if spelling key ∈ spelled then .error refused
      else objectOfPairs spelling refused rest (assign result key value) (spelling key :: spelled)

end

/-- The scan of the brackets of a body before it is decoded. -/
def depthIsBounded (rawBody : ByteArray) (maxDepth : Nat) : Bool :=
  bracketsBounded maxDepth (rawBody.data.toList.map UInt8.toNat)

/-- The bytes of a byte order mark. -/
def byteOrderMark : List UInt8 := [0xEF, 0xBB, 0xBF]

def startsWithMark (rawBody : ByteArray) : Bool := byteOrderMark.isPrefixOf rawBody.data.toList

namespace StrictJson

variable {φ : Type} (text : TextSupport) (numbers : NumberSupport φ)

def invalidJson : Rejection where
  code := "StrictJsonTransportError"
  message := "request body is not strict JSON"

def rejectConstant (_ : String) : Except Rejection (PythonValue φ) := .error invalidJson

def strictFloat (value : String) : Except Rejection (PythonValue φ) :=
  if numbers.finite (numbers.parse value) then .ok (.float (numbers.parse value))
    else .error invalidJson

/-- Keys must stay distinct once they are composed. -/
def strictObject (pairs : List (String × PythonValue φ)) : Except Rejection (PythonValue φ) :=
  objectOfPairs text.nfc invalidJson pairs [] []

def hooks : JsonHooks φ where
  objectPairsHook := strictObject text
  parseConstant := rejectConstant
  parseFloat := strictFloat numbers

/-- Refuse a body that is ambiguous or nested too deeply.  Its strings are made of Unicode scalars
as soon as they are read, so nothing is left to check about them. -/
def validateStrictJsonBody (rawBody : ByteArray) (maxDepth : Int) : Except Rejection Unit := do
  require (rawBody.size ≠ 0) invalidJson.code invalidJson.message
  require (1 ≤ maxDepth) "ValueError" "max_depth must be one positive exact integer"
  require (startsWithMark rawBody = false ∧ depthIsBounded rawBody maxDepth.toNat)
    invalidJson.code invalidJson.message
  let decoded ← requireSome (String.fromUTF8? rawBody) invalidJson.code invalidJson.message
  let _ ← requireSome (jsonLoadsWith numbers (hooks text numbers) decoded).toOption invalidJson.code
    invalidJson.message
  return ()

end StrictJson

section

variable {φ : Type}

mutual

/-- Every number can be read and every two keys of one object are spelled differently. -/
def Unambiguous (numbers : NumberSupport φ) (spelling : String → String) (float : String → Bool) :
    JsonValue → Prop
  | .scalar (.number written) => written ∉ ["NaN", "Infinity", "-Infinity"] ∧
      (if integral written then (readInt numbers written).isSome = true else float written = true)
  | .scalar _ => True
  | .array items => UnambiguousItems numbers spelling float items
  | .object members => (members.map fun member => spelling member.1).Nodup ∧
      UnambiguousMembers numbers spelling float members

def UnambiguousItems (numbers : NumberSupport φ) (spelling : String → String)
    (float : String → Bool) : List JsonValue → Prop
  | [] => True
  | item :: rest =>
    Unambiguous numbers spelling float item ∧ UnambiguousItems numbers spelling float rest

def UnambiguousMembers (numbers : NumberSupport φ) (spelling : String → String)
    (float : String → Bool) : List (String × JsonValue) → Prop
  | [] => True
  | (_, item) :: rest =>
    Unambiguous numbers spelling float item ∧ UnambiguousMembers numbers spelling float rest

end

/-- Hooks that keep objects with differently spelled keys and the floats of one kind. -/
structure JsonHooks.Admits (hooks : JsonHooks φ) (numbers : NumberSupport φ)
    (spelling : String → String) (float : String → Bool) : Prop where
  object : ∀ pairs value, hooks.objectPairsHook pairs = .ok value ↔
    (pairs.map fun pair => spelling pair.1).Nodup ∧
      value = .mapping (pairs.map fun pair => (some pair.1, pair.2))
  constant : ∀ name value, hooks.parseConstant name ≠ .ok value
  fractional : ∀ written value, hooks.parseFloat written = .ok value ↔
    float written = true ∧ value = .float (numbers.parse written)

theorem assign_fresh {result : List (Option String × PythonValue φ)}
    (fresh : ∀ entry ∈ result, entry.1 ≠ some key) :
      assign result key value = result ++ [(some key, value)] := by
  have absent : ¬result.any (fun entry => entry.1 = some key) = true := by
    rw [List.any_eq_true]
    rintro ⟨entry, inside, same⟩
    exact fresh entry inside (of_decide_eq_true same)
  rw [assign, if_neg absent]

theorem objectOfPairs_ok {spelling : String → String} :
    ∀ {pairs : List (String × PythonValue φ)} {result : List (Option String × PythonValue φ)}
    {spelled : List String},
      (∀ entry ∈ result, ∀ key, entry.1 = some key → spelling key ∈ spelled) →
      (objectOfPairs spelling refused pairs result spelled = .ok value ↔
        (pairs.map fun pair => spelling pair.1).Nodup ∧
        (∀ pair ∈ pairs, spelling pair.1 ∉ spelled) ∧
          value = .mapping (result ++ pairs.map fun pair => (some pair.1, pair.2)))
  | [], result, _, _ => by simp [objectOfPairs, eq_comm]
  | (key, item) :: rest, result, spelled, known => by
      rw [objectOfPairs]
      by_cases seen : spelling key ∈ spelled
      · simp [seen]
      · have fresh : ∀ entry ∈ result, entry.1 ≠ some key :=
          fun entry inside same => seen (known entry inside key same)
        have later : ∀ entry ∈ assign result key item, ∀ other, entry.1 = some other →
            spelling other ∈ spelling key :: spelled := by
          rw [assign_fresh fresh]
          intro entry inside other same
          rcases List.mem_append.mp inside with old | new
          · exact List.mem_cons_of_mem _ (known entry old other same)
          · obtain rfl := List.mem_singleton.mp new
            obtain rfl := Option.some.inj same
            exact List.mem_cons_self
        rw [if_neg seen, objectOfPairs_ok later, assign_fresh fresh]
        rw [List.forall_mem_cons]
        simp only [List.map_cons, List.nodup_cons, List.mem_cons, not_or, List.append_assoc,
          List.cons_append, List.nil_append, List.mem_map, not_exists, not_and]
        constructor
        · rintro ⟨distinct, others, rfl⟩
          exact ⟨⟨fun pair inside => (others pair inside).1, distinct⟩,
            ⟨seen, fun pair inside => (others pair inside).2⟩, rfl⟩
        · rintro ⟨⟨first, distinct⟩, ⟨_, others⟩, rfl⟩
          exact ⟨distinct, fun pair inside => ⟨first pair inside, others pair inside⟩, rfl⟩

variable {numbers : NumberSupport φ} {hooks : JsonHooks φ} {spelling : String → String}
  {float : String → Bool}

theorem ofJsonMembers_names (read : ofJsonMembers numbers members = some pairs) :
      pairs.map Prod.fst = members.map Prod.fst := by
  induction members generalizing pairs with
  | nil =>
      cases read
      rfl
  | cons member rest ih =>
      simp only [ofJsonMembers, Option.bind_eq_bind, Option.bind_eq_some_iff,
        Option.some.injEq] at read
      obtain ⟨value, _, others, tail, rfl⟩ := read
      simp [ih tail]

theorem spelled_names {α : Type} {members : List (String × JsonValue)} {pairs : List (String × α)}
    (names : pairs.map Prod.fst = members.map Prod.fst) :
    (pairs.map fun pair => spelling pair.1) = members.map fun member => spelling member.1 := by
  have composed := congrArg (List.map spelling) names
  simpa [List.map_map, Function.comp_def] using composed

mutual

/-- The hooks keep exactly the unambiguous documents and change none of them. -/
theorem loadsDocument_ok (admits : hooks.Admits numbers spelling float) : ∀ {document : JsonValue}
    {value : PythonValue φ}, loadsDocument numbers hooks document = .ok value ↔
      Unambiguous numbers spelling float document ∧ PythonValue.ofJson numbers document = some value
  | .scalar .null, value => by simp [loadsDocument, Unambiguous, PythonValue.ofJson]
  | .scalar (.bool flag), value => by simp [loadsDocument, Unambiguous, PythonValue.ofJson]
  | .scalar (.string written), value => by simp [loadsDocument, Unambiguous, PythonValue.ofJson]
  | .scalar (.number written), value => by
      rw [loadsDocument, Unambiguous, PythonValue.ofJson]
      by_cases constant : written ∈ ["NaN", "Infinity", "-Infinity"]
      · simp only [constant, if_true, not_true, false_and, iff_false]
        exact admits.constant written value
      · by_cases whole : integral written = true
        · simp only [constant, whole, if_false, if_true, not_false_iff, true_and, bind_ok, pure_ok,
            requireSome_ok]
          cases readInt numbers written <;> simp
        · simp only [constant, whole, if_false, Bool.false_eq_true, not_false_iff, true_and,
            admits.fractional, Option.some.injEq]
          exact and_congr_right fun _ => eq_comm
  | .array items, value => by
      simp only [loadsDocument, Unambiguous, PythonValue.ofJson, bind_ok, pure_ok,
        loadsItems_ok admits, Option.map_eq_some_iff]
      constructor
      · rintro ⟨values, ⟨unambiguous, read⟩, rfl⟩
        exact ⟨unambiguous, values, read, rfl⟩
      · rintro ⟨unambiguous, values, read, rfl⟩
        exact ⟨values, ⟨unambiguous, read⟩, rfl⟩
  | .object members, value => by
      simp only [loadsDocument, Unambiguous, PythonValue.ofJson, bind_ok, loadsMembers_ok admits,
        admits.object, Option.map_eq_some_iff]
      constructor
      · rintro ⟨pairs, ⟨unambiguous, read⟩, distinct, rfl⟩
        rw [spelled_names (ofJsonMembers_names read)] at distinct
        refine ⟨⟨distinct, unambiguous⟩, pairs, read, ?_⟩
        rw [dictionary_nodup]
        rw [ofJsonMembers_names read]
        exact List.Nodup.of_map spelling (by simpa [List.map_map, Function.comp_def] using distinct)
      · rintro ⟨⟨distinct, unambiguous⟩, pairs, read, rfl⟩
        refine ⟨pairs, ⟨unambiguous, read⟩,
          by rw [spelled_names (ofJsonMembers_names read)]; exact distinct, ?_⟩
        rw [dictionary_nodup]
        rw [ofJsonMembers_names read]
        exact List.Nodup.of_map spelling (by simpa [List.map_map, Function.comp_def] using distinct)

theorem loadsItems_ok (admits : hooks.Admits numbers spelling float) : ∀ {items : List JsonValue}
    {values : List (PythonValue φ)}, loadsItems numbers hooks items = .ok values ↔
      UnambiguousItems numbers spelling float items ∧ ofJsonItems numbers items = some values
  | [], values => by simp [loadsItems, UnambiguousItems, ofJsonItems]
  | item :: rest, values => by
      simp only [loadsItems, UnambiguousItems, ofJsonItems, bind_ok, pure_ok,
        loadsDocument_ok admits,
        loadsItems_ok admits, Option.bind_eq_bind, Option.bind_eq_some_iff, Option.some.injEq]
      constructor
      · rintro ⟨value, ⟨first, read⟩, others, ⟨later, remaining⟩, rfl⟩
        exact ⟨⟨first, later⟩, value, read, others, remaining, rfl⟩
      · rintro ⟨⟨first, later⟩, value, read, others, remaining, rfl⟩
        exact ⟨value, ⟨first, read⟩, others, ⟨later, remaining⟩, rfl⟩

theorem loadsMembers_ok (admits : hooks.Admits numbers spelling float) :
    ∀ {members : List (String × JsonValue)}
    {pairs : List (String × PythonValue φ)}, loadsMembers numbers hooks members = .ok pairs ↔
      UnambiguousMembers numbers spelling float members ∧ ofJsonMembers numbers members = some pairs
  | [], pairs => by simp [loadsMembers, UnambiguousMembers, ofJsonMembers]
  | (name, item) :: rest, pairs => by
      simp only [loadsMembers, UnambiguousMembers, ofJsonMembers, bind_ok, pure_ok,
        loadsDocument_ok admits,
        loadsMembers_ok admits, Option.bind_eq_bind, Option.bind_eq_some_iff, Option.some.injEq]
      constructor
      · rintro ⟨value, ⟨first, read⟩, others, ⟨later, remaining⟩, rfl⟩
        exact ⟨⟨first, later⟩, value, read, others, remaining, rfl⟩
      · rintro ⟨⟨first, later⟩, value, read, others, remaining, rfl⟩
        exact ⟨value, ⟨first, read⟩, others, ⟨later, remaining⟩, rfl⟩

end

theorem fromUTF8?_eq_some :
    String.fromUTF8? rawBody = some decoded ↔ rawBody = decoded.toByteArray := by
  constructor
  · intro read
    rw [String.fromUTF8?] at read
    split at read
    case isFalse => cases read
    case isTrue valid =>
      cases read
      rfl
  · rintro rfl
    rw [String.fromUTF8?, dif_pos (String.isValidUTF8 _)]
    rfl

theorem bytes_of_text (decoded : String) :
    decoded.toByteArray.data.toList = decoded.toList.flatMap String.utf8EncodeChar := by
  rw [← String.utf8Encode_toList]
  simp [List.utf8Encode]

theorem depthIsBounded_iff {decoded : String} (parsed : parse decoded.toList = some document)
    (maxDepth : Nat) : depthIsBounded decoded.toByteArray maxDepth = true ↔
      nesting document ≤ maxDepth := by
  rw [depthIsBounded, bytes_of_text, bracketsBounded_utf8, bracketsBounded_iff parsed]

/-- A document is read from a body without a mark, unambiguously and within its depth. -/
structure Transports (numbers : NumberSupport φ) (spelling : String → String)
    (float : String → Bool)
    (rawBody : ByteArray) (maxDepth : Nat) (document : JsonValue) : Prop where
  unmarked : startsWithMark rawBody = false
  parsed : ∃ decoded : String, rawBody = decoded.toByteArray ∧ parse decoded.toList = some document
  shallow : nesting document ≤ maxDepth
  unambiguous : Unambiguous numbers spelling float document

end

namespace StrictJson

variable {φ : Type} (text : TextSupport) (numbers : NumberSupport φ)

theorem hooks_admits : (hooks text numbers).Admits numbers text.nfc fun written =>
  numbers.finite (numbers.parse written) where
  object pairs value := by
    have kept : strictObject text pairs = .ok value ↔ _ := objectOfPairs_ok (by simp)
    simpa [hooks] using kept
  constant name value := by simp [hooks, rejectConstant]
  fractional written value := by
    simp only [hooks, strictFloat]
    by_cases finite : numbers.finite (numbers.parse written) = true
    · simp only [finite, if_true, Except.ok.injEq, true_and]
      exact eq_comm
    · simp [finite]

theorem validateStrictJsonBody_ok {maxDepth : Int} :
    validateStrictJsonBody text numbers rawBody maxDepth = .ok () ↔ 1 ≤ maxDepth ∧ ∃ document,
      Transports numbers text.nfc (fun written => numbers.finite (numbers.parse written)) rawBody
        maxDepth.toNat document ∧ ∃ value, PythonValue.ofJson numbers document = some value := by
  simp only [validateStrictJsonBody, bind_ok, require_ok, requireSome_ok, pure_ok, toOption_eq_some,
    jsonLoadsWith, fromUTF8?_eq_some, loadsDocument_ok (hooks_admits text numbers)]
  constructor
  · rintro ⟨_, _, _, positive, _, ⟨unmarked, bounded⟩, decoded, rfl, value,
      ⟨document, parsed, unambiguous, read⟩, _⟩
    exact ⟨positive, document,
      ⟨unmarked, ⟨decoded, rfl, parsed⟩, (depthIsBounded_iff parsed _).mp bounded, unambiguous⟩,
      value, read⟩
  · rintro ⟨positive, document, ⟨unmarked, ⟨decoded, rfl, parsed⟩, shallow, unambiguous⟩, value,
      read⟩
    refine ⟨(), ?_, (), positive, (), ⟨unmarked, (depthIsBounded_iff parsed _).mpr shallow⟩,
      decoded, rfl, value, ⟨document, parsed, unambiguous, read⟩, trivial⟩
    intro empty
    obtain rfl : decoded = "" :=
      String.toByteArray_inj.mp (ByteArray.ext_iff.mpr (Array.eq_empty_of_size_eq_zero empty))
    cases parsed

end StrictJson

end MarketingAgents
