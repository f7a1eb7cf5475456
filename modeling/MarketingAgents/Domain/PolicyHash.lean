import MarketingAgents.Domain.CanonicalRecords
import MarketingAgents.Domain.PlanningBudget
import MarketingAgents.Domain.Retention

namespace MarketingAgents

/-! # Hashes of runtime policies

A digest is taken of the canonical text of a projection behind a domain of its own.
-/

/-- The text and number operations of the language with the digest. -/
structure HashSupport (φ : Type) where
  text : TextSupport
  numbers : NumberSupport φ
  sha256 : ByteArray → String

inductive RateLimitScope where
  | template
deriving DecidableEq

/-- The complete immutable policy selected for one planned step. -/
structure PlannedRuntimePolicy extends StepRuntimePolicy where
  runSeconds : Nat
  budget : BudgetPolicySnapshot
  scope : RateLimitScope
deriving DecidableEq

def RetryBackoff.value : RetryBackoff → String
  | none => "none"
  | boundedExponential => "bounded_exponential"

def RateLimitScope.value : RateLimitScope → String
  | template => "template"

def runRuntimePolicyHashDomain : ByteArray :=
  "marketing-agents:run-runtime-policy:v1\x00".toByteArray

def stepRuntimePolicyHashDomain : ByteArray :=
  "marketing-agents:step-runtime-policy:v2\x00".toByteArray

section

variable {φ : Type} (support : HashSupport φ)

/-- The text that is digested of a value. -/
def HashSupport.preimage (domain : ByteArray) (value : PythonValue φ) :
    Except Rejection ByteArray := do
  let bytes ← canonicalJsonBytes support.text support.numbers value
  return domain ++ bytes

def RunRuntimePolicy.projection (policy : RunRuntimePolicy) : List (String × PythonValue φ) :=
  [("max_steps", .int policy.maxSteps),
    ("max_model_calls", .int policy.maxModelCalls),
    ("max_tool_calls", .int policy.maxToolCalls),
    ("run_timeout_seconds", .int policy.runTimeoutSeconds)]

def PlannedRuntimePolicy.projection (policy : PlannedRuntimePolicy) :
    List (String × PythonValue φ) :=
  [("operation_key", .str policy.operationKey),
    ("attempt_kind", .str policy.attemptKind.value),
    ("max_attempts", .int policy.maxAttempts),
    ("backoff", .str policy.backoff.value),
    ("step_timeout_seconds", .int policy.stepSeconds),
    ("template_run_timeout_seconds", .int policy.runSeconds),
    ("max_steps", .int policy.budget.maxSteps),
    ("max_model_calls", .int policy.budget.maxModelCalls),
    ("max_tool_calls", .int policy.budget.maxToolCalls),
    ("max_input_bytes", .int policy.budget.maxInputBytes),
    ("max_input_field_bytes", .int policy.budget.maxInputFieldBytes),
    ("max_output_bytes", .int policy.budget.maxOutputBytes),
    ("max_model_output_tokens", .int policy.budget.maxModelOutputTokens),
    ("rate_limit_scope", .str policy.scope.value),
    ("rate_limit_key", .str policy.rateLimit.key),
    ("rate_limit_max_calls", .int policy.rateLimit.maxCalls),
    ("rate_limit_window_seconds", .int policy.rateLimit.windowSeconds)]

/-- Hash the trusted, effective run-wide ceiling projection. -/
def RunRuntimePolicy.semanticHash (policy : RunRuntimePolicy) : Except Rejection String :=
  support.sha256 <$> support.preimage runRuntimePolicyHashDomain (.record policy.projection)

/-- Hash every storage-facing operation-policy field. -/
def PlannedRuntimePolicy.semanticHash (policy : PlannedRuntimePolicy) : Except Rejection String :=
  support.sha256 <$> support.preimage stepRuntimePolicyHashDomain (.record policy.projection)

/-- A projection with its hash behind it, as a plan binds a policy. -/
def hashedRecord (fields : List (String × PythonValue φ)) (semanticHash : String) : PythonValue φ :=
  .record (fields ++ [("semantic_hash", .str semanticHash)])

def RunRuntimePolicy.material (policy : RunRuntimePolicy) : Except Rejection (PythonValue φ) := do
  let semanticHash ← policy.semanticHash support
  return hashedRecord policy.projection semanticHash

def PlannedRuntimePolicy.material (policy : PlannedRuntimePolicy) :
    Except Rejection (PythonValue φ) := do
  let semanticHash ← policy.semanticHash support
  return hashedRecord policy.projection semanticHash

end

/-- A policy with its texts composed. -/
def PlannedRuntimePolicy.composed (text : TextSupport) (policy : PlannedRuntimePolicy) :
    PlannedRuntimePolicy :=
  { policy with
    operationKey := text.nfc policy.operationKey
    rateLimit := { policy.rateLimit with key := text.nfc policy.rateLimit.key } }

section

variable {φ : Type} {support : HashSupport φ} {text : TextSupport}

theorem preimage_eq_iff (leftWritten : support.preimage domain left = .ok leftBytes)
    (rightWritten : support.preimage domain right = .ok rightBytes) :
    leftBytes = rightBytes ↔ left.Agrees support.text right := by
  simp only [HashSupport.preimage, bind_ok, pure_ok] at leftWritten rightWritten
  obtain ⟨leftText, leftCanonical, rfl⟩ := leftWritten
  obtain ⟨rightText, rightCanonical, rfl⟩ := rightWritten
  rw [ByteArray.append_right_inj]
  exact canonicalJsonBytes_eq_iff leftCanonical rightCanonical

theorem enumeration_agrees {α : Type} {value : α → String} (keeps : text.KeepsAscii)
    (plain : ∀ member, ∀ character ∈ (value member).toList, character.toNat < 128)
    (distinct : Function.Injective value) {left right : α} :
    text.nfc (value left) = text.nfc (value right) ↔ left = right := by
  rw [keeps _ (plain left), keeps _ (plain right)]
  exact distinct.eq_iff

theorem attemptKind_agrees (keeps : text.KeepsAscii) {left right : AttemptKind} :
    text.nfc left.value = text.nfc right.value ↔ left = right := by
  refine enumeration_agrees keeps (fun member => ?_) (fun first second same => ?_)
  · cases member <;> exact plain_of_all (by decide)
  · cases first <;> cases second <;> revert same <;> decide

theorem backoff_agrees (keeps : text.KeepsAscii) {left right : RetryBackoff} :
    text.nfc left.value = text.nfc right.value ↔ left = right := by
  refine enumeration_agrees keeps (fun member => ?_) (fun first second same => ?_)
  · cases member <;> exact plain_of_all (by decide)
  · cases first <;> cases second <;> revert same <;> decide

theorem optional_str_agrees :
    (PythonValue.optional .str left : PythonValue φ).Agrees text (.optional .str right) ↔
      left.map text.nfc = right.map text.nfc := by
  cases left <;> cases right <;>
    simp [PythonValue.optional, PythonValue.Agrees, PythonValue.nfcAll, PythonValue.Same]

theorem optional_nat_agrees :
    (PythonValue.optional (fun value : Nat => .int value) left : PythonValue φ).Agrees text
      (.optional (fun value : Nat => .int value) right) ↔ left = right := by
  cases left <;> cases right <;>
    simp [PythonValue.optional, PythonValue.Agrees, PythonValue.nfcAll, PythonValue.Same]

theorem optional_bool_agrees :
    (PythonValue.optional .bool left : PythonValue φ).Agrees text (.optional .bool right) ↔
      left = right := by
  cases left <;> cases right <;>
    simp [PythonValue.optional, PythonValue.Agrees, PythonValue.nfcAll, PythonValue.Same]

theorem hashedRecord_agrees (keeps : support.text.KeepsAscii) {names : List String}
    (plain : PlainNames (names ++ ["semantic_hash"])) {lefts rights : List (String × PythonValue φ)}
    (leftNames : lefts.map Prod.fst = names) (rightNames : rights.map Prod.fst = names)
    (leftHashed : support.sha256 <$> support.preimage domain (.record lefts) = .ok left)
    (rightHashed : support.sha256 <$> support.preimage domain (.record rights) = .ok right) :
    (hashedRecord lefts left).Agrees support.text (hashedRecord rights right) ↔
      (PythonValue.record lefts).Agrees support.text (.record rights) := by
  have fieldsPlain : PlainNames names :=
    ⟨fun name listed => plain.1 name (List.mem_append_left _ listed), plain.2.of_append_left⟩
  have lengths : lefts.length = rights.length := by
    have lengths := congrArg List.length (leftNames.trans rightNames.symm)
    simpa only [List.length_map] using lengths
  rw [map_eq_pure_bind] at leftHashed rightHashed
  simp only [bind_ok, pure_ok] at leftHashed rightHashed
  obtain ⟨leftBytes, leftWritten, rfl⟩ := leftHashed
  obtain ⟨rightBytes, rightWritten, rfl⟩ := rightHashed
  refine Iff.trans (record_agrees keeps plain (by simp [leftNames]) (by simp [rightNames])) ?_
  rw [record_agrees keeps fieldsPlain leftNames rightNames]
  constructor
  · intro same
    have fields := List.forall₂_take lefts.length same
    rwa [List.take_left, lengths, List.take_left] at fields
  · intro fields
    refine List.rel_append fields (.cons (str_agrees.mpr ?_) .nil)
    have same := (preimage_eq_iff leftWritten rightWritten).mpr
      ((record_agrees keeps fieldsPlain leftNames rightNames).mpr fields)
    rw [same]

theorem RunRuntimePolicy.material_agrees (keeps : support.text.KeepsAscii)
    {first second : RunRuntimePolicy} (leftWritten : first.material support = .ok left)
    (rightWritten : second.material support = .ok right) :
      left.Agrees support.text right ↔ first = second := by
  let names := ["max_steps", "max_model_calls", "max_tool_calls", "run_timeout_seconds"]
  have hashed : PlainNames (names ++ ["semantic_hash"]) := by decide
  have plain : PlainNames names := by decide
  simp only [material, bind_ok, pure_ok] at leftWritten rightWritten
  obtain ⟨_, leftHashed, rfl⟩ := leftWritten
  obtain ⟨_, rightHashed, rfl⟩ := rightWritten
  refine (hashedRecord_agrees keeps hashed rfl rfl leftHashed rightHashed).trans ?_
  refine (record_agrees keeps plain rfl rfl).trans ?_
  cases first
  cases second
  simp only [projection, List.forall₂_cons, List.Forall₂.nil, and_true, int_agrees,
    Int.natCast_inj, mk.injEq]

theorem PlannedRuntimePolicy.material_agrees (keeps : support.text.KeepsAscii)
    {first second : PlannedRuntimePolicy} (leftWritten : first.material support = .ok left)
    (rightWritten : second.material support = .ok right) :
    left.Agrees support.text right ↔ first.composed support.text =
      second.composed support.text := by
  let names := ["operation_key", "attempt_kind", "max_attempts", "backoff", "step_timeout_seconds",
    "template_run_timeout_seconds", "max_steps", "max_model_calls", "max_tool_calls",
      "max_input_bytes",
    "max_input_field_bytes", "max_output_bytes", "max_model_output_tokens", "rate_limit_scope",
      "rate_limit_key",
    "rate_limit_max_calls", "rate_limit_window_seconds"]
  have hashed : PlainNames (names ++ ["semantic_hash"]) := by decide
  have plain : PlainNames names := by decide
  simp only [material, bind_ok, pure_ok] at leftWritten rightWritten
  obtain ⟨_, leftHashed, rfl⟩ := leftWritten
  obtain ⟨_, rightHashed, rfl⟩ := rightWritten
  refine (hashedRecord_agrees keeps hashed rfl rfl leftHashed rightHashed).trans ?_
  refine (record_agrees keeps plain rfl rfl).trans ?_
  obtain ⟨⟨_, _, _, _, _, ⟨_, _, _⟩⟩, _, ⟨_, _, _, _, _, _, _⟩, scope⟩ := first
  obtain ⟨⟨_, _, _, _, _, ⟨_, _, _⟩⟩, _, ⟨_, _, _, _, _, _, _⟩, otherScope⟩ := second
  cases scope
  cases otherScope
  simp only [projection, composed, List.forall₂_cons, List.Forall₂.nil, true_and,
    str_agrees, int_agrees,
    Int.natCast_inj, attemptKind_agrees keeps, backoff_agrees keeps, mk.injEq,
      StepRuntimePolicy.mk.injEq,
    BudgetPolicySnapshot.mk.injEq, RateLimitPolicySnapshot.mk.injEq, and_assoc,
      and_left_comm, and_comm]

end

end MarketingAgents
