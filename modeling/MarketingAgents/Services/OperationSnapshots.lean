import Mathlib
import MarketingAgents.Domain.DataClassification
import MarketingAgents.Domain.Enums
import MarketingAgents.Security.ApprovalMasking

namespace MarketingAgents

/-! # Operation snapshots of the effect planner

The planner copies the operations it may plan and checks their redaction fields.
The approval projection and the persisted step check the same fields again.
-/

/-- Metadata of one connector operation, as its registry declares it. -/
structure PlanningOperationMetadata where
  capabilityId : String
  connectorFamily : String
  effect : Effect
  requestSchemaId : String
  resultSchemaId : String
  dataClassification : DataClassification
  idempotencySupport : String
  defaultTimeoutSeconds : Nat
  requestRedactionFields : List String
  resultRedactionFields : List String
  enabled : Bool
  disabledReason : Option String

/-- The metadata with the hash of the result schema, where the type has a schema. -/
structure PlanningOperationSource where
  metadata : PlanningOperationMetadata
  resultSchemaHash : Option String

structure OperationSnapshot where
  capabilityId : String
  connectorFamily : String
  effect : Effect
  requestSchemaId : String
  resultSchemaId : String
  resultSchemaHash : String
  requestRedactionFields : List String
  resultRedactionFields : List String
  dataClassification : DataClassification
  idempotencySupport : String
  defaultTimeoutSeconds : Nat
  enabled : Bool
  disabledReason : Option String

/-- A failed check becomes a planning error with its own message. -/
def orInvalidOperation {α : Type} (checked : Except Rejection α) : Except Rejection α :=
  match checked with
  | .ok value => .ok value
  | .error reason => reject "invalid_operation" reason.message

def requireOperationIds (metadata : PlanningOperationMetadata) : Except Rejection Unit := do
  requireId metadata.capabilityId "operation capability ID"
  requireId metadata.connectorFamily "operation connector family"
  requireId metadata.requestSchemaId "operation request schema ID"
  requireId metadata.resultSchemaId "operation result schema ID"

/-- The test that the planner makes of one request field. -/
def requestFieldAccepted (field : String) : Bool :=
  ['/'].isPrefixOf field.toList && field ≠ "/" && ¬ ['/', '/'] <:+: field.toList &&
    '*' ∉ field.toList

/-- Result fields are checked as the pointers that they are, under one message. -/
def requireResultFields (fields : List String) : Except Rejection Unit :=
  match requireJsonPointers fields "operation result redaction fields" with
  | .ok _ => .ok ()
  | .error _ => reject "invalid_operation" "result redaction fields must be unique JSON pointers"

def snapshotOperation (known : List OperationSnapshot) (source : PlanningOperationSource) :
    Except Rejection OperationSnapshot := do
  let metadata := source.metadata
  orInvalidOperation (requireOperationIds metadata)
  require (∀ operation ∈ known, operation.capabilityId ≠ metadata.capabilityId)
    "duplicate_operation" "operations must be unique"
  require (metadata.idempotencySupport ∈ ["not_applicable", "required", "supported", "unavailable"])
    "invalid_operation" "operation idempotency support is invalid"
  require (1 ≤ metadata.defaultTimeoutSeconds ∧ metadata.defaultTimeoutSeconds ≤ 120)
    "invalid_operation" "operation timeout must be from 1 through 120 seconds"
  require (metadata.requestRedactionFields.Nodup ∧ ∀ field ∈ metadata.requestRedactionFields,
      requestFieldAccepted field)
    "invalid_operation" "request redaction fields must be unique JSON pointers"
  requireResultFields metadata.resultRedactionFields
  require (metadata.enabled ≠ metadata.disabledReason.isSome)
    "invalid_operation" "operation enabled state and reason are inconsistent"
  let resultSchemaHash ← requireSome source.resultSchemaHash
    "invalid_operation" "operation result type cannot expose a JSON Schema"
  return {
    capabilityId := metadata.capabilityId
    connectorFamily := metadata.connectorFamily
    effect := metadata.effect
    requestSchemaId := metadata.requestSchemaId
    resultSchemaId := metadata.resultSchemaId
    resultSchemaHash
    requestRedactionFields := metadata.requestRedactionFields
    resultRedactionFields := metadata.resultRedactionFields
    dataClassification := metadata.dataClassification
    idempotencySupport := metadata.idempotencySupport
    defaultTimeoutSeconds := metadata.defaultTimeoutSeconds
    enabled := metadata.enabled
    disabledReason := metadata.disabledReason
  }

/-- Copy the operations one after the other. -/
def snapshotOperations (known : List OperationSnapshot) :
    List PlanningOperationSource → Except Rejection (List OperationSnapshot)
  | [] => .ok known
  | source :: rest => do
      let operation ← snapshotOperation known source
      snapshotOperations (known ++ [operation]) rest

/-- What the approval projection and the step of a planned action make of the
request fields of its operation. -/
def RequestFieldsUsable (operation : OperationSnapshot) : Prop :=
  (∃ schema, approvalRedactionSchema operation.requestRedactionFields = .ok schema) ∧
    ∃ paths, requireJsonPointers operation.requestRedactionFields "step request redaction fields" =
      .ok paths

/-- Neither two slashes in a row nor one at the end. -/
def SlashesApart (text : List Char) : Prop := ¬ ['/', '/'] <:+: text ∧ text.getLast? ≠ some '/'

theorem escapesValid_cons (first : Char) (rest : List Char) : escapesValid (first :: rest) ↔
    (first = '~' → rest.head? = some '0' ∨ rest.head? = some '1') ∧ escapesValid rest := by
  by_cases tilde : first = '~'
  · subst tilde
    cases rest with
    | nil => simp [escapesValid]
    | cons second later => simp [escapesValid]
  · have plain : escapesValid (first :: rest) = escapesValid rest := by
      cases rest with
      | nil => rw [escapesValid.eq_def]; simp_all
      | cons second later => rw [escapesValid.eq_def]; simp_all
    simp [plain, tilde]

theorem head?_splitOn {text first : List Char} {later : List (List Char)} (character : Char)
    (other : character ≠ '/') (tokens : text.splitOn '/' = first :: later) :
    first.head? = some character ↔ text.head? = some character := by
  cases text with
  | nil =>
      cases tokens
      simp
  | cons head rest =>
      rw [List.splitOn_cons_eq_if_modifyHead] at tokens
      by_cases slash : head = '/'
      · subst slash
        rw [if_pos (by rfl)] at tokens
        cases tokens
        simp [other.symm]
      · rw [if_neg (by simpa using slash)] at tokens
        cases split : rest.splitOn '/' with
        | nil => exact absurd split (List.splitOn_ne_nil _ _)
        | cons token others =>
            rw [split] at tokens
            cases tokens
            simp

theorem escapesValid_splitOn (text : List Char) :
    escapesValid text ↔ ∀ token ∈ text.splitOn '/', escapesValid token := by
  induction text with
  | nil => simp [escapesValid]
  | cons head rest ih =>
      rw [escapesValid_cons, ih, List.splitOn_cons_eq_if_modifyHead]
      by_cases slash : head = '/'
      · subst slash
        simp [escapesValid]
      · rw [if_neg (by simpa using slash)]
        cases split : rest.splitOn '/' with
        | nil => exact absurd split (List.splitOn_ne_nil _ _)
        | cons token others =>
            have zero := head?_splitOn '0' (by decide) split
            have one := head?_splitOn '1' (by decide) split
            rw [List.modifyHead_cons, List.forall_mem_cons, List.forall_mem_cons,
              escapesValid_cons, zero, one, and_assoc]

/-- Every token behind the first is nonempty. -/
theorem splitOn_nonempty (text : List Char) :
    (∀ token ∈ (text.splitOn '/').tail, token ≠ []) ↔ SlashesApart text := by
  induction text with
  | nil => simp [SlashesApart]
  | cons head rest ih =>
      rw [List.splitOn_cons_eq_if_modifyHead]
      cases split : rest.splitOn '/' with
      | nil => exact absurd split (List.splitOn_ne_nil _ _)
      | cons token others =>
          rw [split, List.tail_cons] at ih
          by_cases slash : head = '/'
          · subst slash
            rw [if_pos (by rfl), List.tail_cons, List.forall_mem_cons, ih]
            cases rest with
            | nil =>
                cases split
                simp [SlashesApart]
            | cons second later =>
                have first : token = [] ↔ second = '/' := by
                  rw [List.splitOn_cons_eq_if_modifyHead] at split
                  by_cases next : second = '/'
                  · rw [if_pos (by simpa using next)] at split
                    cases split
                    simp [next]
                  · rw [if_neg (by simpa using next)] at split
                    cases deeper : later.splitOn '/' with
                    | nil => exact absurd deeper (List.splitOn_ne_nil _ _)
                    | cons inner more =>
                        rw [deeper] at split
                        cases split
                        simp [next]
                rw [ne_eq, first]
                simp only [SlashesApart, List.infix_cons_iff (a := '/'), List.cons_prefix_cons,
                  List.getLast?_cons_cons]
                simp [eq_comm]
                tauto
          · rw [if_neg (by simpa using slash), List.modifyHead_cons, List.tail_cons, ih]
            have outside : ¬ ['/', '/'] <+: head :: rest := by
              rw [List.cons_prefix_cons]
              exact fun starts => slash starts.1.symm
            cases rest with
            | nil => simp [SlashesApart, List.infix_cons_iff, slash, Ne.symm slash]
            | cons second later =>
                simp only [SlashesApart, List.infix_cons_iff (a := head), outside, false_or,
                  List.getLast?_cons_cons]

/-- The decoded path of one pointer. -/
def pointerPath (field : String) : List String := (field.toList.tail.splitOn '/').map decodeToken

/-- A field within the length of a pointer, without a slash at its end or a tilde
that starts no escape. -/
def FieldWritable (field : String) : Prop :=
  field.toList.length ≤ 1000 ∧ field.toList.getLast? ≠ some '/' ∧ escapesValid field.toList

/-- Every field is writable, and no decoded path lies on or below another. -/
def FieldsWritable (fields : List String) : Prop :=
  (∀ field ∈ fields, FieldWritable field) ∧ (fields.map pointerPath).Pairwise Apart

theorem decodePointer_ok (accepted : requestFieldAccepted field) :
    decodePointer fieldName field = .ok path ↔ FieldWritable field ∧ pointerPath field = path := by
  simp only [requestFieldAccepted, List.isPrefixOf_iff_prefix, Bool.and_eq_true,
    decide_eq_true_eq] at accepted
  obtain ⟨⟨⟨starts, root⟩, apart⟩, -⟩ := accepted
  obtain ⟨rest, text⟩ := starts
  have text : field.toList = '/' :: rest := text.symm
  simp only [decodePointer, bind_ok, require_ok, pure_ok, exists_const]
  have split : ('/' :: rest).splitOn '/' = [] :: rest.splitOn '/' := by
    rw [List.splitOn_cons_eq_if_modifyHead, if_pos (by rfl)]
  have filled := splitOn_nonempty ('/' :: rest)
  rw [split, List.tail_cons] at filled
  have escapes := escapesValid_splitOn rest
  have escaped := escapesValid_cons '/' rest
  rw [text] at apart
  have tokens : ((rest.splitOn '/').all fun token => token ≠ [] && escapesValid token) ↔
      ('/' :: rest).getLast? ≠ some '/' ∧ escapesValid ('/' :: rest) := by
    rw [List.all_eq_true, escaped, escapes]
    simp only [Bool.and_eq_true, decide_eq_true_eq, forall_and, filled, SlashesApart, apart,
      not_false_eq_true, true_and, false_implies, Char.reduceEq]
  simp only [text, List.head?_cons, List.tail_cons, tokens, FieldWritable, pointerPath]
  have starts : some '/' = some '/' ∧ field ≠ "/" := ⟨rfl, by simpa using root⟩
  tauto

theorem decodePointers_ok {fields : List String}
    (accepted : ∀ field ∈ fields, requestFieldAccepted field) :
    decodePointers fieldName known fields = .ok paths ↔
      (∀ field ∈ fields, FieldWritable field) ∧
      (∀ path ∈ known, ∀ later ∈ fields.map pointerPath, Apart path later) ∧
        (fields.map pointerPath).Pairwise Apart ∧ known ++ fields.map pointerPath = paths := by
  induction fields generalizing known with
  | nil => simp [decodePointers]
  | cons field rest ih =>
      have first := accepted field List.mem_cons_self
      have later : ∀ other ∈ rest, requestFieldAccepted other := fun other member =>
        accepted other (List.mem_cons_of_mem _ member)
      simp only [decodePointers, bind_ok, require_ok, decodePointer_ok first,
        ih later, exists_const]
      have outside (existing : List String) : (!overlapping (pointerPath field) existing) = true ↔
          Apart existing (pointerPath field) := by
        simp only [overlapping, Apart, ← List.isPrefixOf_iff_prefix, Bool.not_eq_true',
          Bool.or_eq_false_iff, Bool.not_eq_true]
        tauto
      constructor
      · intro decoded
        obtain ⟨_, ⟨writable, rfl⟩, disjoint, others, separate, pairwise, rfl⟩ := decoded
        have disjoint : ∀ existing ∈ known, Apart existing (pointerPath field) :=
            fun existing member =>
          (outside existing).mp (List.all_eq_true.mp disjoint existing member)
        refine ⟨List.forall_mem_cons.mpr ⟨writable, others⟩, ?_, ?_, by simp⟩
        · intro path member other below
          rcases List.mem_cons.mp below with same | behind
          · exact same ▸ disjoint path member
          · exact separate path (List.mem_append_left _ member) other behind
        · rw [List.map_cons, List.pairwise_cons]
          exact ⟨fun other behind =>
            separate _ (List.mem_append_right _ (List.mem_singleton_self _)) other behind, pairwise⟩
      · intro writable
        obtain ⟨writable, separate, pairwise, rfl⟩ := writable
        obtain ⟨head, others⟩ := List.forall_mem_cons.mp writable
        rw [List.map_cons, List.pairwise_cons] at pairwise
        refine ⟨pointerPath field, ⟨head, rfl⟩, ?_, others, ?_, pairwise.2, by simp⟩
        · rw [List.all_eq_true]
          intro existing member
          exact (outside existing).mpr (separate existing member _ List.mem_cons_self)
        · intro path member other behind
          rcases List.mem_append.mp member with old | new
          · exact separate path old other (List.mem_cons_of_mem _ behind)
          · exact List.mem_singleton.mp new ▸ pairwise.1 other behind

theorem requireJsonPointers_ok {fields : List String}
    (accepted : ∀ field ∈ fields, requestFieldAccepted field) :
    requireJsonPointers fields fieldName = .ok paths ↔
      fields.Nodup ∧ FieldsWritable fields ∧ fields.map pointerPath = paths := by
  simp only [requireJsonPointers, bind_ok, require_ok, decodePointers_ok accepted, exists_const,
    FieldsWritable]
  simp [and_assoc]

theorem snapshotOperation_accepted (copied : snapshotOperation known source = .ok operation) :
    operation.requestRedactionFields.Nodup ∧
      ∀ field ∈ operation.requestRedactionFields, requestFieldAccepted field := by
  simp only [snapshotOperation, bind_ok, require_ok, pure_ok] at copied
  obtain ⟨_, _, _, _, _, _, _, _, _, fields, _, _, _, _, _, _, rfl⟩ := copied
  exact fields

theorem snapshotOperations_accepted (copied : snapshotOperations known sources = .ok operations)
    (valid : ∀ operation ∈ known, operation.requestRedactionFields.Nodup ∧
      ∀ field ∈ operation.requestRedactionFields, requestFieldAccepted field) :
    ∀ operation ∈ operations, operation.requestRedactionFields.Nodup ∧
      ∀ field ∈ operation.requestRedactionFields, requestFieldAccepted field := by
  induction sources generalizing known with
  | nil =>
      cases copied
      exact valid
  | cons source rest ih =>
      simp only [snapshotOperations, bind_ok] at copied
      obtain ⟨operation, first, later⟩ := copied
      apply ih later
      intro other member
      rcases List.mem_append.mp member with old | new
      · exact valid other old
      · exact List.mem_singleton.mp new ▸ snapshotOperation_accepted first

/-- The request fields of an operation that the planner accepts are usable in its
actions and steps exactly where each is a writable pointer and no two overlap. -/
theorem requestFields_usable {sources : List PlanningOperationSource}
    {operations : List OperationSnapshot}
    (copied : snapshotOperations [] sources = .ok operations) :
    ∀ operation ∈ operations,
      (RequestFieldsUsable operation ↔ FieldsWritable operation.requestRedactionFields) := by
  intro operation member
  obtain ⟨unique, accepted⟩ := snapshotOperations_accepted copied (by simp) operation member
  simp only [RequestFieldsUsable, approvalRedactionSchema, bind_ok, pure_ok,
    requireJsonPointers_ok accepted]
  constructor
  · intro usable
    obtain ⟨-, -, -, writable, -⟩ := usable
    exact writable
  · intro writable
    exact ⟨⟨_, _, ⟨unique, writable, rfl⟩, rfl⟩, _, unique, writable, rfl⟩

/-- The registered message operation, with other request fields to redact. -/
def sendMessageSource (requestRedactionFields : List String) : PlanningOperationSource where
  metadata := {
    capabilityId := "cap.messaging.send-message"
    connectorFamily := "community"
    effect := .write
    requestSchemaId := "schema.messaging.send-message.request"
    resultSchemaId := "schema.messaging.send-message.result"
    dataClassification := .personal
    idempotencySupport := "required"
    defaultTimeoutSeconds := 30
    requestRedactionFields
    resultRedactionFields := []
    enabled := true
    disabledReason := none
  }
  resultSchemaHash := some ("schema-sha256-v1:" ++ String.ofList (List.replicate 64 '0'))

def sendMessageSnapshot (requestRedactionFields : List String) : OperationSnapshot where
  capabilityId := "cap.messaging.send-message"
  connectorFamily := "community"
  effect := .write
  requestSchemaId := "schema.messaging.send-message.request"
  resultSchemaId := "schema.messaging.send-message.result"
  resultSchemaHash := "schema-sha256-v1:" ++ String.ofList (List.replicate 64 '0')
  requestRedactionFields
  resultRedactionFields := []
  dataClassification := .personal
  idempotencySupport := "required"
  defaultTimeoutSeconds := 30
  enabled := true
  disabledReason := none

theorem snapshotOperations_sendMessage {requestRedactionFields : List String}
    (unique : requestRedactionFields.Nodup)
    (accepted : ∀ field ∈ requestRedactionFields, requestFieldAccepted field = true) :
    snapshotOperations [] [sendMessageSource requestRedactionFields] =
      .ok [sendMessageSnapshot requestRedactionFields] := by
  have ids : orInvalidOperation
      (requireOperationIds (sendMessageSource requestRedactionFields).metadata) = .ok () := by
    have capability : requireId "cap.messaging.send-message" "operation capability ID" =
      .ok () := by decide +kernel
    have family : requireId "community" "operation connector family" = .ok () := by decide +kernel
    have request : requireId "schema.messaging.send-message.request" "operation request schema ID" =
        .ok () := by
      decide +kernel
    have result : requireId "schema.messaging.send-message.result" "operation result schema ID" =
        .ok () := by
      decide +kernel
    simp only [requireOperationIds, sendMessageSource, capability, family, request, result]
    rfl
  simp only [snapshotOperations, snapshotOperation, bind_ok, require_ok, requireSome_ok, pure_ok]
  refine ⟨sendMessageSnapshot requestRedactionFields,
    ⟨(), ids, (), ?_, (), ?_, (), ?_, (), ⟨unique, accepted⟩, (), rfl, (), ?_, _, rfl, rfl⟩, rfl⟩
  · intro operation impossible
    cases impossible
  · show "required" ∈ ["not_applicable", "required", "supported", "unavailable"]
    decide
  · show 1 ≤ 30 ∧ 30 ≤ 120
    decide
  · show true ≠ (none : Option String).isSome
    decide

theorem requestFields_usable_sendMessage :
    snapshotOperations [] [sendMessageSource ["/recipient_refs", "/body"]] =
        .ok [sendMessageSnapshot ["/recipient_refs", "/body"]] ∧
      ∀ operation ∈ [sendMessageSnapshot ["/recipient_refs", "/body"]],
        (RequestFieldsUsable operation ↔ FieldsWritable operation.requestRedactionFields) := by
  have copied : snapshotOperations [] [sendMessageSource ["/recipient_refs", "/body"]] =
      .ok [sendMessageSnapshot ["/recipient_refs", "/body"]] :=
    snapshotOperations_sendMessage (by decide) (by decide +kernel)
  exact ⟨copied, requestFields_usable copied⟩

/-- Two fields of which one lies below the other pass the planner's check only. -/
theorem requestFields_overlapping : ¬ ∀ sources operations,
    snapshotOperations [] sources = .ok operations →
    ∀ operation ∈ operations, RequestFieldsUsable operation := by
  intro usable
  have copied : snapshotOperations [] [sendMessageSource ["/body", "/body/subject"]] =
      .ok [sendMessageSnapshot ["/body", "/body/subject"]] :=
    snapshotOperations_sendMessage (by decide) (by decide +kernel)
  obtain ⟨-, paths, accepted⟩ := usable _ _ copied _ List.mem_cons_self
  have refused : (requireJsonPointers ["/body", "/body/subject"]
      "step request redaction fields").isOk = false := by
    decide +kernel
  rw [show (sendMessageSnapshot ["/body", "/body/subject"]).requestRedactionFields =
    ["/body", "/body/subject"] from rfl]
    at accepted
  rw [accepted] at refused
  cases refused

end MarketingAgents
