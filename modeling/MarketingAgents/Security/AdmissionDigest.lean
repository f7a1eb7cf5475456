import MarketingAgents.Domain.CanonicalRecords
import MarketingAgents.Services.WebhookIntake

namespace MarketingAgents

/-! # Digests of admitted work

The payload of an envelope and its complete routing context are digested under
the installed key, each behind a domain of its own.
-/

/-- The text and number operations of the language with the keyed hash. -/
structure DigestSupport (φ : Type) where
  text : TextSupport
  numbers : NumberSupport φ
  hmac : String → ByteArray → String
  fingerprint : String → String

def payloadDigestDomain : ByteArray :=
  "marketing-agents:admitted-payload:hmac-sha256:v1\x00".toByteArray

def admissionDigestDomain : ByteArray :=
  "marketing-agents:work-admission:hmac-sha256:v1\x00".toByteArray

def digestKeyVersionPrefix : String := "admission-hmac-sha256-v1:"

def AdmissionDigests.validate (digests : AdmissionDigests) : Except Rejection Unit := do
  requireDigest digests.inputDigest "input digest"
  requireDigest digests.admissionDigest "admission digest"
  require (digestKeyVersionPrefix.toList <+: digests.digestKeyVersion.toList ∧
      digestText (digests.digestKeyVersion.toList.drop digestKeyVersionPrefix.toList.length))
    "ValueError" "digest key version is invalid"

namespace AdmissionEnvelope

section

variable {φ : Type} (envelope : AdmissionEnvelope)

/-- The routing context that an admission digest binds. -/
def projection (version : String) (payload : PythonValue φ) : List (String × PythonValue φ) :=
  [("canonicalization_version", .int 1),
    ("digest_scheme", .str "hmac-sha256-v1"),
    ("digest_key_version", .str version),
    ("source", .str envelope.source),
    ("event_id", .str envelope.eventId),
    ("instance_id", .str envelope.instanceId),
    ("trigger_id", .str envelope.triggerId),
    ("workflow_id", .str envelope.workflowId),
    ("mode", .str envelope.mode.value),
    ("campaign_brief", .optional (fun brief =>
      .record [("id", .str brief.1), ("revision", .int brief.2)]) envelope.brief),
    ("configuration_revision", .int envelope.configurationRevision),
    ("admitted_payload", payload)]

variable (support : DigestSupport φ)

/-- The payload as its constructor froze it. -/
def Frozen : Prop :=
  ∃ value, canonicalJsonBytes support.text support.numbers value =
    .ok envelope.admittedPayload.toByteArray

def payload : Except Rejection (PythonValue φ) :=
  requireSome (jsonLoads support.numbers envelope.admittedPayload.toByteArray) "ValueError"
    "invalid JSON"

/-- The text that an admission digest is taken of. -/
def message (version : String) : Except Rejection ByteArray := do
  let payload ← envelope.payload support
  canonicalJsonBytes support.text support.numbers (.record (envelope.projection version payload))

/-- Envelopes that are equal up to composition. -/
structure Agrees (first second : AdmissionEnvelope) : Prop where
  source : support.text.nfc first.source = support.text.nfc second.source
  eventId : support.text.nfc first.eventId = support.text.nfc second.eventId
  instanceId : support.text.nfc first.instanceId = support.text.nfc second.instanceId
  triggerId : support.text.nfc first.triggerId = support.text.nfc second.triggerId
  workflowId : support.text.nfc first.workflowId = support.text.nfc second.workflowId
  mode : first.mode = second.mode
  brief : first.brief.map (Prod.map support.text.nfc id) =
    second.brief.map (Prod.map support.text.nfc id)
  configurationRevision : first.configurationRevision = second.configurationRevision
  admittedPayload : ∀ left right : PythonValue φ,
    canonicalJsonBytes support.text support.numbers left = .ok first.admittedPayload.toByteArray →
    canonicalJsonBytes support.text support.numbers right = .ok second.admittedPayload.toByteArray →
      left.Agrees support.text right

end

end AdmissionEnvelope

namespace DigestSupport

variable {φ : Type} (support : DigestSupport φ)

def admissionDigestKeyVersion (key : String) : String :=
  digestKeyVersionPrefix ++ support.fingerprint key

def deriveAdmissionDigests (envelope : AdmissionEnvelope) (key : String) :
    Except Rejection AdmissionDigests := do
  let payload ← envelope.payload support
  let payloadBytes ← canonicalJsonBytes support.text support.numbers payload
  let message ← envelope.message support (support.admissionDigestKeyVersion key)
  let digests : AdmissionDigests := {
    inputDigest := support.hmac key (payloadDigestDomain ++ payloadBytes)
    admissionDigest := support.hmac key (admissionDigestDomain ++ message)
    digestKeyVersion := support.admissionDigestKeyVersion key }
  digests.validate
  return digests

end DigestSupport

namespace AdmissionEnvelope

variable {φ : Type} {support : DigestSupport φ} {first second : AdmissionEnvelope}
  {version : String}

theorem mode_plain (mode : WorkMode) : ∀ character ∈ mode.value.toList, character.toNat < 128 := by
  cases mode <;> exact plain_of_all (by decide)

theorem mode_agrees (keeps : support.text.KeepsAscii) {left right : WorkMode} :
    support.text.nfc left.value = support.text.nfc right.value ↔ left = right := by
  rw [keeps _ (mode_plain left), keeps _ (mode_plain right)]
  cases left <;> cases right <;> decide

theorem brief_agrees (keeps : support.text.KeepsAscii) {left right : Option (String × Nat)} :
    (PythonValue.optional (fun brief => .record [("id", .str brief.1), ("revision", .int brief.2)])
      left :
      PythonValue φ).Agrees support.text
        (.optional (fun brief => .record [("id", .str brief.1), ("revision", .int brief.2)])
          right) ↔
      left.map (Prod.map support.text.nfc id) = right.map (Prod.map support.text.nfc id) := by
  have plain : PlainNames ["id", "revision"] := by decide
  cases left <;> cases right
  · simp [PythonValue.optional, PythonValue.Agrees, PythonValue.nfcAll, PythonValue.Same]
  · simp [PythonValue.optional, PythonValue.Agrees, PythonValue.nfcAll, PythonValue.record,
      PythonValue.Same]
  · simp [PythonValue.optional, PythonValue.Agrees, PythonValue.nfcAll, PythonValue.record,
      PythonValue.Same]
  · refine (record_agrees keeps plain rfl rfl).trans ?_
    simp only [List.forall₂_cons, List.Forall₂.nil, and_true, str_agrees, int_agrees,
      Int.natCast_inj, Option.map_some, Option.some.injEq, Prod.map, Prod.mk.injEq, id]

theorem Frozen.payload (frozen : first.Frozen support) :
    ∃ payload, first.payload support = .ok payload ∧
      canonicalJsonBytes support.text support.numbers payload =
        .ok first.admittedPayload.toByteArray := by
  obtain ⟨value, written⟩ := frozen
  obtain ⟨decoded, loaded, again⟩ := canonicalJsonBytes_decoded written
  exact ⟨decoded, requireSome_ok.mpr loaded, again⟩

theorem message_eq_iff (keeps : support.text.KeepsAscii) (firstFrozen : first.Frozen support)
    (secondFrozen : second.Frozen support) {left right : ByteArray}
    (firstWritten : first.message support version = .ok left)
    (secondWritten : second.message support version = .ok right) :
    left = right ↔ first.Agrees support second := by
  obtain ⟨firstPayload, firstRead, firstBytes⟩ := firstFrozen.payload
  obtain ⟨secondPayload, secondRead, secondBytes⟩ := secondFrozen.payload
  simp only [message, firstRead, secondRead, bind_ok, Except.ok.injEq,
    exists_eq_left'] at firstWritten secondWritten
  have plain : PlainNames ["canonicalization_version", "digest_scheme", "digest_key_version",
    "source", "event_id",
      "instance_id", "trigger_id", "workflow_id", "mode", "campaign_brief",
        "configuration_revision",
      "admitted_payload"] := by decide
  rw [canonicalJsonBytes_eq_iff firstWritten secondWritten]
  refine (record_agrees keeps plain rfl rfl).trans ?_
  simp only [projection, List.forall₂_cons, List.Forall₂.nil, and_true, true_and,
    str_agrees, int_agrees, mode_agrees keeps, brief_agrees keeps, Int.natCast_inj]
  constructor
  · rintro ⟨source, eventId, instanceId, triggerId, workflowId, mode, brief, revision, payload⟩
    refine ⟨source, eventId, instanceId, triggerId, workflowId, mode, brief, revision, ?_⟩
    intro left right leftWritten rightWritten
    -- Values with the text of a payload agree with the payload that is read from it.
    rw [PythonValue.Agrees, ← canonicalJsonBytes_eq_iff leftWritten rightWritten]
    exact (canonicalJsonBytes_eq_iff firstBytes secondBytes).mpr payload
  · intro agrees
    exact ⟨agrees.source, agrees.eventId, agrees.instanceId, agrees.triggerId,
      agrees.workflowId, agrees.mode,
      agrees.brief, agrees.configurationRevision, agrees.admittedPayload _ _ firstBytes secondBytes⟩

end AdmissionEnvelope

namespace DigestSupport

variable {φ : Type} {support : DigestSupport φ} {first second : AdmissionEnvelope} {key : String}
  {left right : AdmissionDigests}

theorem derive_agrees (keeps : support.text.KeepsAscii) (firstFrozen : first.Frozen support)
    (secondFrozen : second.Frozen support) (agrees : first.Agrees support second)
    (firstDerived : support.deriveAdmissionDigests first key = .ok left)
    (secondDerived : support.deriveAdmissionDigests second key = .ok right) : left = right := by
  obtain ⟨firstPayload, firstRead, firstBytes⟩ := firstFrozen.payload
  obtain ⟨secondPayload, secondRead, secondBytes⟩ := secondFrozen.payload
  simp only [deriveAdmissionDigests, firstRead, secondRead, firstBytes, secondBytes,
    bind_ok, pure_ok, Except.ok.injEq, exists_eq_left'] at firstDerived secondDerived
  obtain ⟨firstMessage, firstWritten, _, _, rfl⟩ := firstDerived
  obtain ⟨secondMessage, secondWritten, _, _, rfl⟩ := secondDerived
  have messages := (AdmissionEnvelope.message_eq_iff keeps firstFrozen secondFrozen firstWritten
    secondWritten).mpr agrees
  have payloads := (canonicalJsonBytes_eq_iff firstBytes secondBytes).mpr
    (agrees.admittedPayload _ _ firstBytes secondBytes)
  rw [messages, payloads]

end DigestSupport

end MarketingAgents
