import MarketingAgents.Domain.ActionHash
import MarketingAgents.Domain.PlanHash

namespace MarketingAgents

open Library

/-! # Authorization set memberships, and what the hashes bind -/

/-- One ordered action and step identity in a complete authorization set. -/
structure SetMemberIdentity where
  authorizationSetId : String
  ordinal : Nat
  runId : String
  planHash : String
  proposalRevision : Nat
  actionId : String
  actionHash : String
  stepId : String
  stepKey : String
deriving DecidableEq

/-- The membership of a set: contiguous, without repetition and of one epoch. -/
structure AuthorizationSetMembership where
  id : String
  runId : String
  planHash : String
  proposalRevision : Nat
  members : List SetMemberIdentity
  nonempty : members ≠ []
  ordinals : members.map (·.ordinal) = List.range' 1 members.length
  actionsDistinct : (members.map (·.actionId)).Nodup
  stepsDistinct : (members.map (·.stepId)).Nodup
  stepKeysDistinct : (members.map (·.stepKey)).Nodup
  epoch : ∀ member ∈ members, member.authorizationSetId = id ∧ member.runId = runId ∧
    member.planHash = planHash ∧ member.proposalRevision = proposalRevision

def membershipHashDomain : ByteArray :=
  "marketing-agents:authorization-set-membership:v1\x00".toByteArray

namespace SetMemberIdentity

variable {φ : Type} (member : SetMemberIdentity)

def validate : Except Rejection Unit := do
  requireId member.authorizationSetId "authorization set ID"
  requireId member.runId "authorization set run ID"
  requireId member.actionId "authorization set action ID"
  requireId member.stepId "authorization set step ID"
  requireId member.stepKey "authorization set step key"
  requireDigest member.planHash "authorization set plan hash"
  requireDigest member.actionHash "authorization set action hash"
  require (1 ≤ member.ordinal) "ValueError" "authorization set member ordinal must be positive"
  require (1 ≤ member.proposalRevision) "ValueError"
    "authorization set proposal revision must be positive"

def hashMaterial : List (String × PythonValue φ) :=
  [("ordinal", .int member.ordinal),
    ("run_id", .str member.runId),
    ("plan_hash", .str member.planHash),
    ("proposal_revision", .int member.proposalRevision),
    ("action_id", .str member.actionId),
    ("action_hash", .str member.actionHash),
    ("step_id", .str member.stepId),
    ("step_key", .str member.stepKey)]

def composed (text : TextSupport) : SetMemberIdentity where
  authorizationSetId := text.nfc member.authorizationSetId
  ordinal := member.ordinal
  runId := text.nfc member.runId
  planHash := text.nfc member.planHash
  proposalRevision := member.proposalRevision
  actionId := text.nfc member.actionId
  actionHash := text.nfc member.actionHash
  stepId := text.nfc member.stepId
  stepKey := text.nfc member.stepKey

end SetMemberIdentity

section

variable {φ : Type} (support : HashSupport φ)

def membershipPreimage (authorizationSetId : String) (members : List SetMemberIdentity) :
    Except Rejection ByteArray := do
  requireId authorizationSetId "authorization set ID"
  require (members ≠ []) "ValueError"
    "authorization set membership must be a nonempty immutable tuple"
  support.preimage membershipHashDomain (.record
    [("authorization_set_id", .str authorizationSetId),
      ("members", .sequence (members.map fun member => .record member.hashMaterial))])

/-- Hash the exact set identity and its stable, ordered membership. -/
def authorizationSetMembershipHash (authorizationSetId : String)
    (members : List SetMemberIdentity) : Except Rejection String :=
  support.sha256 <$> membershipPreimage support authorizationSetId members

end

namespace AuthorizationSetMembership

/-- Memberships that are equal up to composition. -/
structure Agrees (text : TextSupport) (first second : AuthorizationSetMembership) : Prop where
  id : text.nfc first.id = text.nfc second.id
  runId : text.nfc first.runId = text.nfc second.runId
  planHash : text.nfc first.planHash = text.nfc second.planHash
  proposalRevision : first.proposalRevision = second.proposalRevision
  members : first.members.map (·.composed text) = second.members.map (·.composed text)

variable {φ : Type} {support : HashSupport φ} {text : TextSupport}
  {first second : AuthorizationSetMembership} {left right : ByteArray}

theorem member_agrees (keeps : text.KeepsAscii) {one other : SetMemberIdentity} :
    (PythonValue.record one.hashMaterial : PythonValue φ).Agrees text (.record other.hashMaterial) ↔
      { one with authorizationSetId := "" }.composed text =
        { other with authorizationSetId := "" }.composed text := by
  have plain : PlainNames ["ordinal", "run_id", "plan_hash", "proposal_revision", "action_id",
    "action_hash", "step_id",
      "step_key"] := by
    decide
  refine (record_agrees keeps plain rfl rfl).trans ?_
  simp only [SetMemberIdentity.hashMaterial, SetMemberIdentity.composed, List.forall₂_cons,
    List.Forall₂.nil, and_true,
    true_and, str_agrees, int_agrees, Int.natCast_inj, SetMemberIdentity.mk.injEq]

/-- The text of a membership binds the set and every field of its members. -/
theorem membershipPreimage_eq_iff (keeps : support.text.KeepsAscii)
    (leftWritten : membershipPreimage support first.id first.members = .ok left)
    (rightWritten : membershipPreimage support second.id second.members = .ok right) :
    left = right ↔ first.Agrees support.text second := by
  simp only [membershipPreimage, bind_ok] at leftWritten rightWritten
  obtain ⟨_, _, _, _, leftBytes⟩ := leftWritten
  obtain ⟨_, _, _, _, rightBytes⟩ := rightWritten
  have plain : PlainNames ["authorization_set_id", "members"] := by decide
  rw [preimage_eq_iff leftBytes rightBytes]
  refine (record_agrees keeps plain rfl rfl).trans ?_
  simp only [List.forall₂_cons, List.Forall₂.nil, and_true, str_agrees, sequence_agrees,
    List.forall₂_map_left_iff, List.forall₂_map_right_iff, member_agrees keeps]
  constructor
  · rintro ⟨sameId, same⟩
    have members : first.members.map (·.composed support.text) =
        second.members.map (·.composed support.text) := by
      rw [← List.forall₂_eq_eq_eq, List.forall₂_map_left_iff, List.forall₂_map_right_iff]
      refine (related_congr fun one inFirst other inSecond => ?_).mp same
      -- The set of a member is the one that the text names.
      have sameSet : support.text.nfc one.authorizationSetId =
          support.text.nfc other.authorizationSetId := by
        rw [(first.epoch one inFirst).1, (second.epoch other inSecond).1, sameId]
      simp only [SetMemberIdentity.composed, SetMemberIdentity.mk.injEq, sameSet, true_and]
    have head : ∃ one ∈ first.members, ∃ other ∈ second.members,
        one.composed support.text = other.composed support.text := by
      obtain ⟨one, inFirst⟩ := List.exists_mem_of_ne_nil _ first.nonempty
      obtain ⟨other, inSecond, agree⟩ := List.mem_map.mp (members ▸ List.mem_map_of_mem inFirst)
      exact ⟨one, inFirst, other, inSecond, agree.symm⟩
    obtain ⟨one, inFirst, other, inSecond, agree⟩ := head
    simp only [SetMemberIdentity.composed, SetMemberIdentity.mk.injEq] at agree
    obtain ⟨_, firstRun, firstPlan, firstRevision⟩ := first.epoch one inFirst
    obtain ⟨_, secondRun, secondPlan, secondRevision⟩ := second.epoch other inSecond
    exact {
      id := sameId
      runId := by rw [← firstRun, ← secondRun, agree.2.2.1]
      planHash := by rw [← firstPlan, ← secondPlan, agree.2.2.2.1]
      proposalRevision := by rw [← firstRevision, ← secondRevision, agree.2.2.2.2.1]
      members }
  · intro agrees
    have same := agrees.members
    rw [← List.forall₂_eq_eq_eq, List.forall₂_map_left_iff, List.forall₂_map_right_iff] at same
    refine ⟨agrees.id, same.imp fun one other agree => ?_⟩
    simp only [SetMemberIdentity.composed, SetMemberIdentity.mk.injEq] at agree ⊢
    exact ⟨trivial, agree.2⟩

end AuthorizationSetMembership

/-- Two texts are the same exactly in the given case, and so are their digests unless these
collide. -/
def HashSupport.Binds {φ : Type} (support : HashSupport φ) (left right : ByteArray)
    (same : Prop) : Prop :=
  (left = right ↔ same) ∧
    ((support.sha256 left = support.sha256 right → left = right) →
      (support.sha256 left = support.sha256 right ↔ same))

theorem HashSupport.Binds.of_iff {φ : Type} {support : HashSupport φ}
    {left right : ByteArray} {same : Prop}
    (bound : left = right ↔ same) : support.Binds left right same :=
  ⟨bound, fun apart => ⟨fun digests => bound.mp (apart digests),
    fun holds => by rw [bound.mpr holds]⟩⟩

/-- Plans, actions, their meanings and memberships are bound by what is digested of them up to
composition, and of a plan only the identities of its run are left out. -/
theorem hashPreimages_bind {φ : Type} (support : HashSupport φ) (keeps : support.text.KeepsAscii) :
    (∀ (first second : EffectPlanSnapshot) (left right : ByteArray),
      first.hashPreimage support = .ok left →
      second.hashPreimage support = .ok right →
        support.Binds left right (first.Agrees support.text second)) ∧
    (∀ (first second : ExactExternalAction φ) (left right : ByteArray),
      first.authorizationPreimage support = .ok left →
      second.authorizationPreimage support = .ok right →
        support.Binds left right (first.Agrees support.text second)) ∧
    (∀ (first second : SemanticExternalAction φ) (left right : ByteArray),
      first.hashPreimage support = .ok left →
      second.hashPreimage support = .ok right →
        support.Binds left right (first.Agrees support.text second)) ∧
    (∀ (first second : AuthorizationSetMembership) (left right : ByteArray),
      membershipPreimage support first.id first.members = .ok left →
      membershipPreimage support second.id second.members = .ok right →
        support.Binds left right (first.Agrees support.text second)) ∧
    ∀ (plan : EffectPlanSnapshot) (runId : String) (runtimeStepId : EffectPlannedStep → String),
      (plan.relocated runId runtimeStepId).effectPlanHash support =
        plan.effectPlanHash support := by
  refine ⟨fun first second left right leftWritten rightWritten => ?_,
    fun first second left right leftWritten rightWritten => ?_,
    fun first second left right leftWritten rightWritten => ?_,
    fun first second left right leftWritten rightWritten => ?_, fun plan runId runtimeStepId => ?_⟩
  · exact .of_iff (EffectPlanSnapshot.hashPreimage_eq_iff keeps leftWritten rightWritten)
  · exact .of_iff (ExactExternalAction.authorizationPreimage_eq_iff keeps leftWritten rightWritten)
  · exact .of_iff (SemanticExternalAction.hashPreimage_eq_iff keeps leftWritten rightWritten)
  · exact .of_iff (AuthorizationSetMembership.membershipPreimage_eq_iff keeps
      leftWritten rightWritten)
  · rw [EffectPlanSnapshot.effectPlanHash, EffectPlanSnapshot.relocated_hashPreimage]
    rfl

namespace PreimageExample

def digestOf (bytes : ByteArray) : String :=
  String.ofList (List.replicate 64 (Nat.digitChar (bytes.size % 16)))

def support : HashSupport Bool where
  text := acuteSupport
  numbers := halfSupport
  sha256 := digestOf

def digest : String := String.ofList (List.replicate 64 '0')

def policy : PlannedRuntimePolicy where
  operationKey := "runtime-operation"
  attemptKind := .tool
  maxAttempts := 1
  backoff := .none
  stepSeconds := 30
  rateLimit := { key := "rate", maxCalls := 10, windowSeconds := 60 }
  runSeconds := 120
  budget := {
    maxSteps := 5
    maxModelCalls := 2
    maxToolCalls := 4
    maxInputBytes := 65536
    maxInputFieldBytes := 16384
    maxOutputBytes := 262144
    maxModelOutputTokens := 4096 }
  scope := .template

def step (redacted runtimeStepId : String) : EffectPlannedStep where
  stepKey := "publish"
  kind := "action"
  selectedInstanceId := "instance"
  routingSlotKey := none
  templateId := "template"
  configurationRevision := 1
  capabilityId := "cap.publish"
  effect := .write
  connectorFamily := "crm"
  bindingId := some "binding"
  bindingConfigurationRevision := some 1
  requestSchemaId := some "schema.request"
  resultSchemaId := some "schema.result"
  resultSchemaHash := some ("schema-sha256-v1:" ++ digest)
  requestRedactionFields := [redacted]
  resultRedactionFields := []
  dataClassification := .internal
  idempotencySupport := "required"
  connectorTimeoutSeconds := some 20
  approvalPolicyId := "policy"
  approvalRequiredRoles := ["reviewer"]
  approvalRequiredScopes := []
  approvalExpiresAfterSeconds := some 3600
  approvalAllowSelfApproval := some false
  runtimePolicy := policy
  runtimeStepId := runtimeStepId

def plan (workflowVersion : Nat) (redacted runId runtimeStepId : String) : EffectPlanSnapshot where
  runId := runId
  workflowId := "workflow"
  workflowVersion := workflowVersion
  workflowDefinitionHash := digest
  catalogContentHash := "catalog-sha256-v1:" ++ digest
  graphHash := digest
  routingHash := digest
  runPolicy := { maxSteps := 5, maxModelCalls := 2, maxToolCalls := 4, runTimeoutSeconds := 120 }
  steps := [step redacted runtimeStepId]

end PreimageExample

open PreimageExample in
theorem hashPreimages_bind_redacted :
    (∃ bytes, (plan 1 decomposedAcute "run:1" "step:1").hashPreimage support = .ok bytes ∧
      (plan 1 acute "run:2" "step:2").hashPreimage support = .ok bytes) ∧
    ∀ left right, (plan 1 acute "run:1" "step:1").hashPreimage support = .ok left →
      (plan 2 acute "run:1" "step:1").hashPreimage support = .ok right → left ≠ right := by
  obtain ⟨plans, _⟩ := hashPreimages_bind support acuteSupport_keepsAscii
  constructor
  · have decomposed : ((plan 1 decomposedAcute "run:1" "step:1").hashPreimage support).isOk =
      true := by decide +kernel
    have composed : ((plan 1 acute "run:2" "step:2").hashPreimage support).isOk = true := by
      decide +kernel
    cases leftWritten : (plan 1 decomposedAcute "run:1" "step:1").hashPreimage support with
    | error reason => simp [leftWritten, Except.isOk, Except.toBool] at decomposed
    | ok left =>
        cases rightWritten : (plan 1 acute "run:2" "step:2").hashPreimage support with
        | error reason => simp [rightWritten, Except.isOk, Except.toBool] at composed
        | ok right =>
            have agrees : (plan 1 decomposedAcute "run:1" "step:1").Agrees acuteSupport
                (plan 1 acute "run:2" "step:2") := by
              constructor <;> decide +kernel
            have same := (plans _ _ left right leftWritten rightWritten).1.mpr agrees
            exact ⟨right, by rw [same], rfl⟩
  · intro left right leftWritten rightWritten same
    have agrees := (plans _ _ left right leftWritten rightWritten).1.mp same
    exact absurd agrees.workflowVersion (by decide)

end MarketingAgents
