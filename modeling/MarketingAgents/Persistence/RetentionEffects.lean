import MarketingAgents.Persistence.RetentionExecution

namespace MarketingAgents.Retention

open Library

/-! # What an erasure leaves alone -/

/-- An action without the contents that erasures of itself and of its receipt take. -/
def ExternalActionRecord.lifecycle (row : ExternalActionRecord) : ExternalActionRecord :=
  { row with
    canonicalEnvelope := []
    redactedProjection := []
    connectorSafeMetadata := row.connectorSafeMetadata.map fun _ => [] }

/-- An event without its metadata and the fingerprints that cover it. -/
def AuditEventRecord.semantics (row : AuditEventRecord) : AuditEventContent :=
  { row.toAuditEventContent with safeMetadata := [] }

/-- Every row is still there and differs at most in its contents. -/
structure Preserves (before after : RetentionDb) : Prop where
  works : Table.Keeps WorkItemRecord.expire before.works after.works
  runs : after.runs = before.runs
  actions : Table.Keeps ExternalActionRecord.lifecycle before.actions after.actions
  approvals : Table.Keeps ApprovalRequestRecord.expire before.approvals after.approvals
  decisions : Table.Keeps ApprovalDecisionRecord.expire before.decisions after.decisions
  artifacts : Table.Keeps ArtifactRecord.expire before.artifacts after.artifacts
  artifactParents : after.artifactParents = before.artifactParents
  receipts : Table.Keeps ConnectorActionReceiptRecord.expire before.receipts after.receipts
  attempts : Table.Keeps ExecutionAttemptRecord.expire before.attempts after.attempts
  workerClaims : after.workerClaims = before.workerClaims
  audits : ∀ id audit, before.audits.get? id = some audit →
    ∃ kept, after.audits.get? id = some kept ∧ kept.semantics = audit.semantics
  briefs : Table.Keeps CampaignBriefRecord.expire before.briefs after.briefs
  schedules : after.schedules = before.schedules

namespace Preserves

variable {before middle after : RetentionDb}

theorem refl (db : RetentionDb) : Preserves db db :=
  ⟨.refl _, rfl, .refl _, .refl _, .refl _, .refl _, rfl, .refl _, .refl _, rfl,
    fun _ audit found => ⟨audit, found, rfl⟩, .refl _, rfl⟩

theorem trans (left : Preserves before middle) (right : Preserves middle after) :
    Preserves before after where
  works := left.works.trans right.works
  runs := right.runs.trans left.runs
  actions := left.actions.trans right.actions
  approvals := left.approvals.trans right.approvals
  decisions := left.decisions.trans right.decisions
  artifacts := left.artifacts.trans right.artifacts
  artifactParents := right.artifactParents.trans left.artifactParents
  receipts := left.receipts.trans right.receipts
  attempts := left.attempts.trans right.attempts
  workerClaims := right.workerClaims.trans left.workerClaims
  audits := by
    intro id audit found
    obtain ⟨between, lookup, first⟩ := left.audits id audit found
    obtain ⟨kept, located, second⟩ := right.audits id between lookup
    exact ⟨kept, located, second.trans first⟩
  briefs := left.briefs.trans right.briefs
  schedules := right.schedules.trans left.schedules

end Preserves

/-- What the erasure of one content changes: contents of rows, and the run that the
detail turns out to belong to. -/
structure ErasureEffect (db : RetentionDb) (kind : RetainedKind) (identity : String)
    (erasure : Erasure) : Prop where
  preserves : Preserves db erasure.db
  details : erasure.db.details = db.details
  maintenance : erasure.db.maintenance = db.maintenance
  audits : ∀ id, kind ≠ .audit ∨ id ≠ identity → erasure.db.audits.get? id = db.audits.get? id
  identified : requireId identity "retained record ID" = .ok ()
  work : kind = .work → ∃ runId, erasure.run = some runId ∧
    (db.runs.keysWhere fun _ run => run.workItemId = identity) = [runId]
  receipt : kind = .receipt → ∃ receipt action, db.receipts.get? identity = some receipt ∧
    db.actions.get? receipt.externalActionId = some action ∧ erasure.run = some action.runId
  others : kind ≠ .work → kind ≠ .receipt → erasure.run = none

theorem ErasureEffect.of_unlocated {kind : RetainedKind} {identity : String} {erasure : Erasure}
    (unlocated : kind ≠ .work ∧ kind ≠ .receipt) (preserves : Preserves db erasure.db)
    (details : erasure.db.details = db.details)
    (maintenance : erasure.db.maintenance = db.maintenance)
    (audits : ∀ id, kind ≠ .audit ∨ id ≠ identity → erasure.db.audits.get? id = db.audits.get? id)
    (identified : requireId identity "retained record ID" = .ok ()) (run : erasure.run = none) :
    ErasureEffect db kind identity erasure where
  preserves
  details
  maintenance
  audits
  identified
  work := fun same => absurd same unlocated.1
  receipt := fun same => absurd same unlocated.2
  others := fun _ _ => run

theorem requireId_ok (valid : requireId value fieldName = .ok done) :
    requireId value other = .ok () := by
  simp only [requireId, require_ok] at valid ⊢
  exact valid

section

variable {ports : RetentionPorts} {db : RetentionDb} {identity : String}
  {erasure : Erasure} {now : Time}

theorem eraseWork_effect (erased : eraseWork ports db identity = .ok erasure) :
    ErasureEffect db .work identity erasure := by
  simp only [eraseWork, bind_ok, requireSource, requireSome_ok, require_ok] at erased
  obtain ⟨row, found, _, valid, _, _, _, _, erased⟩ := erased
  split at erased
  · next runId sole =>
      cases pure_ok.mp erased
      exact {
        preserves := { Preserves.refl db with works := .of_set found rfl }
        details := rfl
        maintenance := rfl
        audits := fun _ _ => rfl
        identified := requireId_ok valid
        work := fun _ => ⟨runId, rfl, sole⟩
        receipt := fun impossible => absurd impossible (by decide)
        others := fun other => absurd rfl other }
  · cases erased
  · cases erased

theorem eraseAction_effect (erased : eraseAction ports db identity = .ok erasure) :
    ErasureEffect db .action identity erasure := by
  simp only [eraseAction, bind_ok, requireSource, requireSome_ok, pure_ok] at erased
  obtain ⟨row, found, _, valid, _, _, rfl⟩ := erased
  exact .of_unlocated (by decide) { Preserves.refl db with actions := .of_set found rfl } rfl rfl
    (fun _ _ => rfl) (requireId_ok valid) rfl

theorem eraseDecisionOf_effect (erased : eraseDecisionOf ports db identity = .ok erasure) :
    Preserves db erasure.db ∧ erasure.db.details = db.details ∧
    erasure.db.maintenance = db.maintenance ∧
      erasure.db.audits = db.audits ∧ erasure.db.approvals = db.approvals := by
  unfold eraseDecisionOf at erased
  split at erased
  · cases erased
    exact ⟨.refl db, rfl, rfl, rfl, rfl⟩
  · next decisionId decision sole =>
      simp only [eraseDecision, bind_ok, pure_ok] at erased
      obtain ⟨_, _, rfl⟩ := erased
      have listed : (decisionId, decision) ∈ db.decisions.entries :=
        (List.mem_filter.mp (sole ▸ List.mem_singleton.mpr rfl)).1
      have found := Table.get?_eq_some_iff.mpr listed
      exact ⟨{ Preserves.refl db with decisions := .of_set found rfl }, rfl, rfl, rfl, rfl⟩
  · cases erased

theorem eraseApproval_effect (erased : eraseApproval ports db identity = .ok erasure) :
    ErasureEffect db .approval identity erasure := by
  simp only [eraseApproval, bind_ok, requireSource, requireSome_ok, pure_ok] at erased
  obtain ⟨row, found, _, valid, _, _, decided, concluded, rfl⟩ := erased
  obtain ⟨preserves, details, maintenance, audits, approvals⟩ := eraseDecisionOf_effect concluded
  have still : decided.db.approvals.get? identity = some row := by rw [approvals, found]
  have closed : Preserves decided.db
      { decided.db with approvals := decided.db.approvals.set identity row.expire } :=
    { Preserves.refl decided.db with approvals := .of_set still rfl }
  exact .of_unlocated (by decide) (preserves.trans closed) details maintenance
    (fun id _ => by rw [audits]) (requireId_ok valid) rfl

theorem eraseArtifact_effect (erased : eraseArtifact ports db identity = .ok erasure) :
    ErasureEffect db .artifact identity erasure := by
  simp only [eraseArtifact, bind_ok, requireSource, requireSome_ok, pure_ok] at erased
  obtain ⟨row, found, _, valid, _, _, rfl⟩ := erased
  exact .of_unlocated (by decide) { Preserves.refl db with artifacts := .of_set found rfl } rfl rfl
    (fun _ _ => rfl) (requireId_ok valid) rfl

theorem receiptAction_ok :
    receiptAction db identity receipt = .ok action ↔
      db.actions.get? receipt.externalActionId = some action ∧
      action.connectorReceiptId = some identity ∧
        action.connectorSafeMetadata = some receipt.safeMetadata := by
  simp only [receiptAction, bind_ok, requireSome_ok, require_ok, pure_ok]
  constructor
  · rintro ⟨_, found, _, same, rfl⟩
    exact ⟨found, same⟩
  · rintro ⟨found, same⟩
    exact ⟨action, found, (), same, rfl⟩

theorem eraseReceipt_effect (erased : eraseReceipt ports db identity = .ok erasure) :
    ErasureEffect db .receipt identity erasure := by
  simp only [eraseReceipt, bind_ok, requireSome_ok, receiptAction_ok, pure_ok] at erased
  obtain ⟨receipt, found, _, valid, _, _, action, ⟨acted, _, same⟩, rfl⟩ := erased
  exact {
    preserves := { Preserves.refl db with
      receipts := .of_set found rfl
      actions := .of_set acted
        (by simp [ExternalActionRecord.lifecycle, ExternalActionRecord.expireResult, same]) }
    details := rfl
    maintenance := rfl
    audits := fun _ _ => rfl
    identified := requireId_ok valid
    work := fun impossible => absurd impossible (by decide)
    receipt := fun _ => ⟨receipt, action, found, acted, rfl⟩
    others := fun _ other => absurd rfl other }

theorem eraseAttempt_effect (erased : eraseAttempt ports db identity = .ok erasure) :
    ErasureEffect db .attempt identity erasure := by
  simp only [eraseAttempt, bind_ok, requireSource, requireSome_ok, pure_ok] at erased
  obtain ⟨row, found, _, valid, _, _, rfl⟩ := erased
  exact .of_unlocated (by decide) { Preserves.refl db with attempts := .of_set found rfl } rfl rfl
    (fun _ _ => rfl) (requireId_ok valid) rfl

theorem expireOptionalMetadata_ok
    (expired : expireOptionalMetadata ports identity audit now = .ok retained) :
    retained.semantics = audit.semantics ∧ retained.safeMetadata = audit.keptMetadata := by
  simp only [expireOptionalMetadata, bind_ok, pure_ok] at expired
  obtain ⟨_, _, _, _, _, _, _, _, rfl⟩ := expired
  exact ⟨rfl, rfl⟩

theorem eraseAudit_effect (erased : eraseAudit ports db identity now = .ok erasure) :
    ErasureEffect db .audit identity erasure := by
  simp only [eraseAudit, bind_ok, requireSome_ok, pure_ok] at erased
  obtain ⟨audit, found, _, read, retained, expired, rfl⟩ := erased
  obtain ⟨semantics, _⟩ := expireOptionalMetadata_ok expired
  simp only [readAudit, bind_ok] at read
  obtain ⟨_, _, _, valid, _⟩ := read
  have preserves : Preserves db { db with audits := db.audits.set identity retained } :=
    { Preserves.refl db with
      audits := by
        intro id row located
        by_cases same : id = identity
        · subst same
          cases found.symm.trans located
          exact ⟨retained, Table.get?_set_self found, semantics⟩
        · exact ⟨row, (Table.get?_set_ne same).trans located, rfl⟩ }
  refine .of_unlocated (by decide) preserves rfl rfl ?_ (requireId_ok valid) rfl
  intro id other
  exact Table.get?_set_ne (other.resolve_left fun differs => differs rfl)

theorem eraseBrief_effect (erased : eraseBrief ports db identity = .ok erasure) :
    ErasureEffect db .brief identity erasure := by
  simp only [eraseBrief, bind_ok, requireSource, requireSome_ok, pure_ok] at erased
  obtain ⟨row, found, _, valid, _, _, _, _, rfl⟩ := erased
  exact .of_unlocated (by decide) { Preserves.refl db with briefs := .of_set found rfl } rfl rfl
    (fun _ _ => rfl) (requireId_ok valid) rfl

theorem eraseContent_effect (erased : eraseContent ports db identity now kind = .ok erasure) :
    ErasureEffect db kind identity erasure := by
  cases kind with
  | work => exact eraseWork_effect erased
  | action => exact eraseAction_effect erased
  | approval => exact eraseApproval_effect erased
  | artifact => exact eraseArtifact_effect erased
  | receipt => exact eraseReceipt_effect erased
  | attempt => exact eraseAttempt_effect erased
  | audit => exact eraseAudit_effect erased
  | brief => exact eraseBrief_effect erased

end

end MarketingAgents.Retention
