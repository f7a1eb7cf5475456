import MarketingAgents.Persistence.RetentionBatches

namespace MarketingAgents.Retention

open Library

/-! # Retention is safe

A detail is erased once, when nothing of its run can still need it, and nothing
but contents goes.  An occurrence is completed once and repeats its counts.
-/

section

variable {ports : RetentionPorts} {before after : RetentionDb} {now completedAt : Time}
  {claim : RetentionClaim}
variable {key : RetainedKind × String} {detail : RetentionDetailRecord} {cutoff : Time}
  {runId : String}

/-- Nothing of a run can be continued. -/
structure EligibleRun (db : RetentionDb) (cutoff : Time) (runId : String) : Prop where
  terminal : ∃ run, db.runs.get? runId = some run ∧ run.state.terminal
  actions : ∀ id action, db.actions.get? id = some action → action.runId = runId →
    action.state ∈ terminalActions
  attempts : ∀ id attempt, db.attempts.get? id = some attempt → attempt.runId = runId →
    attempt.completedAt ≠ none
  retries : ∀ id attempt, db.attempts.get? id = some attempt → attempt.runId = runId →
    attempt.retryNotBefore ≠ none → attempt.terminalReasonCode ≠ none ∨
      ∃ later successor, db.attempts.get? later = some successor ∧ successor.runId = runId ∧
        successor.stepId = attempt.stepId ∧ successor.operationKey = attempt.operationKey ∧
        attempt.attemptNumber < successor.attemptNumber
  claims : ∀ expires, db.workerClaims.get? runId = some expires → expires ≤ cutoff

theorem eligibleRun_sound {db : RetentionDb} (eligible : db.eligibleRun cutoff runId) :
    EligibleRun db cutoff runId := by
  simp only [RetentionDb.eligibleRun, Option.any_eq_true, Bool.and_eq_true, Bool.not_eq_true',
    Option.any_eq_false,
    List.any_eq_false, decide_eq_true_eq, decide_eq_false_iff_not, not_lt, not_and,
      Table.mem_rows_iff,
    forall_exists_index] at eligible
  obtain ⟨run, found, ⟨⟨terminal, actions⟩, attempts⟩, claims⟩ := eligible
  have settled : ∀ id attempt, db.attempts.get? id = some attempt → attempt.runId = runId →
    ¬db.pendingAttempt attempt :=
    fun id attempt located bound => attempts attempt id located bound
  constructor
  · exact ⟨run, found, terminal⟩
  · intro id action located bound
    by_contra open'
    exact actions action id located bound open'
  · intro id attempt located bound incomplete
    exact settled id attempt located bound (by simp [RetentionDb.pendingAttempt, incomplete])
  · intro id attempt located bound retried
    by_contra open'
    push Not at open'
    obtain ⟨undecided, alone⟩ := open'
    apply settled id attempt located bound
    have unsuperseded : db.supersededRetry attempt = false := by
      simp only [RetentionDb.supersededRetry, List.any_eq_false, Table.mem_rows_iff,
        Bool.and_eq_true, decide_eq_true_eq]
      rintro successor ⟨later, lookup⟩ ⟨⟨⟨run, step⟩, operation⟩, greater⟩
      exact absurd greater (Nat.not_lt.mpr
        (alone later successor lookup (run.trans bound) step operation))
    simp [RetentionDb.pendingAttempt, undecided, unsuperseded, Option.isSome_iff_ne_none, retried]
  · exact claims

/-- Why a detail could be erased: it had expired by the cutoff, nothing needs its
run, and whatever was made from it went before. -/
structure Justified (db : RetentionDb) (cutoff : Time) (key : RetainedKind × String)
    (purged : RetentionDetailRecord) : Prop where
  expired : purged.expiresAt ≤ cutoff
  bound : key.1 ≠ .brief → key.1 ≠ .audit → purged.runId ≠ none
  finished : ∀ runId, purged.runId = some runId → EligibleRun db cutoff runId
  childless : key.1 = .artifact → ∀ parent ∈ db.artifactParents, parent.parentArtifactId = key.2 →
    ∃ child, db.details.get? (.artifact, parent.artifactId) = some child ∧ child.purgedAt ≠ none
  unattached : key.1 = .brief → ∀ id work, db.works.get? id = some work →
    work.campaignBriefId = some key.2 →
    ∃ runId run, db.runs.get? runId = some run ∧ run.workItemId = id ∧ EligibleRun db cutoff runId
  inactive : key.1 = .audit → purged.runId = none → ∃ audit, db.audits.get? key.2 = some audit ∧
    audit.runId = none ∧
    ∀ schedule, audit.scheduleId = some schedule → db.schedules.get? schedule ≠ some true

theorem eligibleWork_sound {db : RetentionDb} (eligible : db.eligibleWork cutoff workId) :
    ∃ runId run, db.runs.get? runId = some run ∧ run.workItemId = workId ∧
      EligibleRun db cutoff runId := by
  simp only [RetentionDb.eligibleWork, List.any_eq_true, Bool.and_eq_true,
    decide_eq_true_eq] at eligible
  obtain ⟨⟨runId, run⟩, listed, attached, eligible⟩ := eligible
  exact ⟨runId, run, Table.get?_eq_some_iff.mpr listed, attached, eligibleRun_sound eligible⟩

/-- What a selection found for the run of a detail. -/
theorem selects_finished {db middle : RetentionDb} {purged : RetentionDetailRecord}
    (bound : db.rowRun key.1 key.2 = some detail.runId) (selected : db.selects cutoff key detail)
    (preserves : Preserves db middle) (effect : ErasureEffect middle key.1 key.2 erasure)
    (runs : purged.runId = erasure.run.or detail.runId) :
    (key.1 ≠ .brief → key.1 ≠ .audit → purged.runId ≠ none) ∧
      ∀ runId, purged.runId = some runId → EligibleRun db cutoff runId := by
  simp only [RetentionDb.selects, Bool.and_eq_true, Bool.or_eq_true, decide_eq_true_eq,
    Option.any_eq_true] at selected
  obtain ⟨_, reason⟩ := selected
  obtain ⟨kind, identity⟩ := key
  cases kind with
  | work =>
      obtain ⟨runId, located, sole⟩ := effect.work rfl
      have unbound : detail.runId = none := (Option.some.inj bound).symm
      simp only [unbound, reduceCtorEq, false_and, exists_false, false_or, or_false,
        true_and] at reason
      obtain ⟨eligibleId, run, found, attached, eligible⟩ := eligibleWork_sound reason
      have listed : eligibleId ∈ middle.runs.keysWhere fun _ run => run.workItemId = identity := by
        rw [Table.mem_keysWhere, preserves.runs]
        exact ⟨run, found, by simpa using attached⟩
      rw [sole, List.mem_singleton] at listed
      subst listed
      simp only [located, Option.some_or] at runs
      rw [runs]
      exact ⟨fun _ _ => Option.some_ne_none _, fun _ same => Option.some.inj same ▸ eligible⟩
  | receipt =>
      obtain ⟨receipt, action, found, acted, located⟩ := effect.receipt rfl
      have unbound : detail.runId = none := (Option.some.inj bound).symm
      simp only [unbound, reduceCtorEq, false_and, exists_false, false_or, or_false, true_and,
        RetentionDb.eligibleReceipt, Option.any_eq_true] at reason
      obtain ⟨original, lookup, performed, performing, eligible⟩ := reason
      obtain ⟨kept, still, same⟩ := preserves.receipts.rows identity original lookup
      cases found.symm.trans still
      have sameAction : receipt.externalActionId = original.externalActionId :=
        (ConnectorActionReceiptRecord.mk.inj same).2.2.1
      obtain ⟨keptAction, stillActing, equal⟩ := preserves.actions.rows _ performed performing
      rw [sameAction] at acted
      cases acted.symm.trans stillActing
      have sameRun : action.runId = performed.runId := (ExternalActionRecord.mk.inj equal).1
      simp only [located, Option.some_or] at runs
      rw [runs, sameRun]
      exact ⟨fun _ _ => Option.some_ne_none _, fun _ equal =>
        Option.some.inj equal ▸ eligibleRun_sound eligible⟩
  | brief =>
      have unbound : detail.runId = none := (Option.some.inj bound).symm
      rw [effect.others (by simp) (by simp), unbound] at runs
      exact ⟨fun other => absurd rfl other, fun runId bound =>
        absurd (runs.symm.trans bound) (Option.some_ne_none runId).symm⟩
  | action | approval | artifact | attempt =>
      rw [effect.others (by simp) (by simp), Option.none_or] at runs
      simp only [reduceCtorEq, false_and, or_false] at reason
      obtain ⟨runId, bound, eligible⟩ := reason
      rw [runs, bound]
      exact ⟨fun _ _ => Option.some_ne_none _, fun _ equal =>
        Option.some.inj equal ▸ eligibleRun_sound eligible⟩
  | audit =>
      rw [effect.others (by simp) (by simp), Option.none_or] at runs
      refine ⟨fun _ other => absurd rfl other, fun runId located => ?_⟩
      rw [runs] at located
      simp only [reduceCtorEq, false_and, or_false, true_and] at reason
      rcases reason with ⟨other, same, eligible⟩ | inactive
      · cases located.symm.trans same
        exact eligibleRun_sound eligible
      · simp only [RetentionDb.inactiveGlobalAudit, Option.any_eq_true, Bool.and_eq_true,
          Option.isNone_iff_eq_none] at inactive
        obtain ⟨audit, found, unbound, _⟩ := inactive
        simp only [RetentionDb.rowRun, found, Option.map_some, unbound, located] at bound
        cases bound

theorem childless_of_selects {db : RetentionDb} (selected : db.selects cutoff key detail)
    (artifact : key.1 = .artifact) :
    ∀ parent ∈ db.artifactParents, parent.parentArtifactId = key.2 →
      ∃ child, db.details.get? (.artifact, parent.artifactId) = some child ∧
        child.purgedAt ≠ none := by
  simp only [RetentionDb.selects, artifact, RetentionDb.liveChild, ne_eq, not_true, decide_false,
    Bool.false_or,
    Bool.and_eq_true, Bool.not_eq_true', List.any_eq_false, decide_eq_true_eq, not_and] at selected
  intro parent listed made
  have gone := selected.1.2 parent listed made
  simpa [Option.all_eq_true] using gone

theorem unattached_of_selects {db : RetentionDb} (bound : db.rowRun key.1 key.2 = some detail.runId)
    (selected : db.selects cutoff key detail) (brief : key.1 = .brief) :
    ∀ id work, db.works.get? id = some work → work.campaignBriefId = some key.2 →
      ∃ runId run, db.runs.get? runId = some run ∧ run.workItemId = id ∧
        EligibleRun db cutoff runId := by
  have unbound : detail.runId = none := by
    rw [brief] at bound
    exact (Option.some.inj bound).symm
  simp only [RetentionDb.selects, brief, unbound, Option.any_none, reduceCtorEq,
    decide_false, decide_true,
    Bool.false_and, Bool.false_or, Bool.or_false, Bool.true_and, Bool.and_eq_true,
      Bool.not_eq_true',
    RetentionDb.unsafeBrief, List.any_eq_false, decide_eq_true_eq, not_and,
      Bool.not_eq_false] at selected
  intro id work found attached
  exact eligibleWork_sound (selected.2 (id, work) (Table.get?_eq_some_iff.mp found) attached)

theorem inactive_of_selects {db : RetentionDb} (unbound : detail.runId = none)
    (selected : db.selects cutoff key detail) (audited : key.1 = .audit) :
    ∃ audit, db.audits.get? key.2 = some audit ∧ audit.runId = none ∧
      ∀ schedule, audit.scheduleId = some schedule → db.schedules.get? schedule ≠ some true := by
  simp only [RetentionDb.selects, audited, unbound, Option.any_none, reduceCtorEq,
    decide_false, decide_true,
    Bool.false_and, Bool.false_or, Bool.true_and, Bool.and_eq_true, RetentionDb.inactiveGlobalAudit,
    Option.any_eq_true, Option.isNone_iff_eq_none, Option.all_eq_true,
      decide_eq_true_eq] at selected
  exact selected.2

theorem ErasedIn.justified (erased : ErasedIn ports db now key detail purged)
    (bound : db.rowRun key.1 key.2 = some detail.runId)
    (selected : db.selects cutoff key detail) : Justified db cutoff key purged := by
  obtain ⟨middle, erasure, preserves, effect, witnessed⟩ := erased.effect
  obtain ⟨runBound, finished⟩ := selects_finished bound selected preserves effect witnessed.runId
  refine ⟨?_, runBound, finished, childless_of_selects selected,
    unattached_of_selects bound selected, ?_⟩
  · rw [witnessed.expiresAt]
    simp only [RetentionDb.selects, Bool.and_eq_true, decide_eq_true_eq] at selected
    exact selected.1.1.2
  · intro audited unbound
    rw [witnessed.runId] at unbound
    exact inactive_of_selects (Option.or_eq_none_iff.mp unbound).2 selected audited

end

end MarketingAgents.Retention
