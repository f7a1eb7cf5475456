import Mathlib
import MarketingAgents.Persistence.RetentionRuns

namespace MarketingAgents.Retention

open Library

/-! # What retention guarantees -/

section

variable {ports : RetentionPorts} {before after last : RetentionDb} {operation : RetentionOperation}

/-- What is erased and what is completed is settled. -/
structure Settled (before after : RetentionDb) : Prop where
  erased : ∀ key detail, before.details.get? key = some detail → detail.purgedAt ≠ none →
    after.details.get? key = some detail
  completed : ∀ job record, before.maintenance.get? job = some record → record.state = .completed →
    after.maintenance.get? job = some record

/-- One transaction of a run, seen by what must not go wrong in it. -/
structure Guarantees (ports : RetentionPorts) (before : RetentionDb)
    (operation : RetentionOperation) (after : RetentionDb) : Prop where
  erasures : ∀ key detail, after.details.get? key = some detail → detail.purgedAt ≠ none →
    before.details.get? key = some detail ∨ ∃ held now completedAt record,
      operation = .execute held now completedAt ∧ before.maintenance.get? held.jobId = some record ∧
      holdsClaim record held ∧ (held.claimedAt ≤ now ∧ now < held.expiresAt) ∧
      (∀ old, before.details.get? key = some old → old.purgedAt = none) ∧
      Justified before record.startedAt key detail
  settled : Settled before after
  preserves : ∀ held now completedAt, operation = .execute held now completedAt →
    Preserves before after
  fingerprints : ∀ held now completedAt, operation = .execute held now completedAt →
    ∀ id audit, before.audits.get? id = some audit → after.audits.get? id = some audit ∨
      ∃ detail, after.details.get? (.audit, id) = some detail ∧ detail.purgedAt ≠ none ∧
        ∀ old, before.details.get? (.audit, id) = some old → old.purgedAt = none
  verifies : ∀ key detail, after.details.get? key = some detail → detail.purgedAt ≠ none →
    ∃ retained, verifyRetained ports key detail = .ok retained
  opened : ∀ job record, before.maintenance.get? job = none →
    after.maintenance.get? job = some record →
    record.state = .running ∧ ∃ owner leaseSeconds batchSize,
      operation = .claim record.occurrenceKey owner record.startedAt leaseSeconds batchSize
  continued : ∀ job record, before.maintenance.get? job = some record → ∃ kept,
    after.maintenance.get? job = some kept ∧ kept.occurrenceKey = record.occurrenceKey ∧
      kept.startedAt = record.startedAt ∧ kept.scope = record.scope ∧
      (kept.state = .completed → kept = record ∨ ∃ held now completedAt counts,
        operation = .execute held now completedAt ∧ held.jobId = job ∧
          kept = record.complete counts completedAt)
  single : ∀ job other record again, after.maintenance.get? job = some record →
    after.maintenance.get? other = some again →
      record.occurrenceKey = again.occurrenceKey → job = other
  replays : ∀ job record, after.maintenance.get? job = some record → record.state = .completed →
    ∀ owner now leaseSeconds, requireId owner "retention owner" = .ok () → 1 ≤ leaseSeconds →
      leaseSeconds ≤ 300 →
      ∃ result, claim ports after record.occurrenceKey owner now leaseSeconds
        record.scope.batchSize =
        .ok ⟨after, .ok (.completed result)⟩ ∧ record.counts = some result.counts ∧
        record.completedAt = some result.completedAt ∧ result.replayed

theorem Settled.refl (db : RetentionDb) : Settled db db :=
  ⟨fun _ _ found _ => found, fun _ _ found _ => found⟩

theorem Settled.trans (left : Settled before middle) (right : Settled middle after) :
    Settled before after :=
  ⟨fun key detail found gone => right.erased key detail (left.erased key detail found gone) gone,
    fun job record found done => right.completed job record
      (left.completed job record found done) done⟩

theorem SoundRecord.replays {db : RetentionDb} {job owner : String} {now : Time}
    {leaseSeconds : Nat} (sound : SoundRecord ports job record)
    (found : db.maintenance.get? job = some record)
    (completed : record.state = .completed) (named : requireId owner "retention owner" = .ok ())
    (leased : 1 ≤ leaseSeconds ∧ leaseSeconds ≤ 300) :
    ∃ result, claim ports db record.occurrenceKey owner now leaseSeconds record.scope.batchSize =
      .ok ⟨db, .ok (.completed result)⟩ ∧ record.counts = some result.counts ∧
      record.completedAt = some result.completedAt ∧ result.replayed := by
  obtain ⟨counts, completedAt, stored, timed, limited⟩ := sound.completed completed
  have identified : requireId record.occurrenceKey "retention result occurrence" = .ok () :=
    requireId_ok sound.identified
  have bounded : (∀ value ∈ counts.values, value ≤ 100) ∧ counts.total ≤ 100 :=
    ⟨fun value listed => (RetentionCounts.le_total listed).trans limited, limited⟩
  let result : RetentionResult :=
    ⟨record.occurrenceKey, counts, completedAt, true, identified, bounded⟩
  have replayed : replayCompleted record.occurrenceKey record = .ok (.completed result) := by
    simp only [replayCompleted, bind_ok, requireSome_ok, pure_ok]
    exact ⟨completedAt, timed, counts, stored, result,
      dif_pos identified |>.trans (dif_pos bounded), rfl⟩
  refine ⟨result, ?_, stored, timed, rfl⟩
  have again : claimAgain ports db record.occurrenceKey owner now leaseSeconds
    record.scope.batchSize record =
      .ok ⟨db, .ok (.completed result)⟩ := by
    simp only [claimAgain, bind_ok, require_ok]
    refine ⟨(), ⟨sound.kind, trivial⟩, (), trivial, ?_⟩
    rw [if_pos completed]
    exact bind_ok.mpr ⟨_, replayed, rfl⟩
  rw [sound.job] at found
  simp only [claim, bind_ok, require_ok]
  refine ⟨(), sound.identified, (), named, (), ⟨sound.bounded.1, sound.bounded.2, leased⟩, ?_⟩
  rw [found]
  exact again

/-- What a transaction did to the occurrences. -/
structure Occurrences (before : RetentionDb) (operation : RetentionOperation)
    (after : RetentionDb) : Prop where
  opened : ∀ job record, before.maintenance.get? job = none →
    after.maintenance.get? job = some record →
    record.state = .running ∧ ∃ owner leaseSeconds batchSize,
      operation = .claim record.occurrenceKey owner record.startedAt leaseSeconds batchSize
  continued : ∀ job record, before.maintenance.get? job = some record → ∃ kept,
    after.maintenance.get? job = some kept ∧ kept.occurrenceKey = record.occurrenceKey ∧
      kept.startedAt = record.startedAt ∧ kept.scope = record.scope ∧
        (record.state = .completed → kept = record) ∧
      (kept.state = .completed → kept = record ∨ ∃ held now completedAt counts,
        operation = .execute held now completedAt ∧ held.jobId = job ∧
          kept = record.complete counts completedAt)

theorem Occurrences.of_eq (same : after.maintenance = before.maintenance) :
    Occurrences before operation after := by
  refine ⟨fun job record absent found => ?_, fun job record found => ?_⟩
  · rw [same, absent] at found
    cases found
  · exact ⟨record, same ▸ found, rfl, rfl, rfl, fun _ => rfl, fun _ => .inl rfl⟩

theorem ClaimEffect.occurrences {now : Time} {leaseSeconds batchSize : Nat}
    (effect : ClaimEffect ports occurrenceKey owner now leaseSeconds batchSize before.maintenance
      after.maintenance) :
    Occurrences before (.claim occurrenceKey owner now leaseSeconds batchSize) after := by
  cases effect with
  | unchanged same => exact .of_eq same
  | opened _ _ inserted =>
      obtain ⟨absent, lookup⟩ := Table.get?_insert inserted
      refine ⟨fun job record missing found => ?_, fun job record found => ?_⟩
      · rw [lookup] at found
        split at found
        · cases found
          exact ⟨rfl, owner, leaseSeconds, batchSize, rfl⟩
        · cases missing.symm.trans found
      · have differs : job ≠ jobId ports occurrenceKey := by
          intro same
          subst same
          cases absent.symm.trans found
        exact ⟨record, by rw [lookup, if_neg differs, found], rfl, rfl, rfl, fun _ => rfl,
          fun _ => .inl rfl⟩
  | takenOver old located running moved =>
      refine ⟨fun job record missing found => ?_, fun job record found => ?_⟩
      · rw [moved, Table.get?_set located] at found
        split at found
        · next same =>
            subst same
            cases missing.symm.trans located
        · cases missing.symm.trans found
      · rw [moved, Table.get?_set located]
        split
        · next same =>
            subst same
            cases located.symm.trans found
            have unfinished : old.state ≠ .completed := by rw [running]; decide
            exact ⟨_, rfl, rfl, rfl, rfl, fun completed => absurd completed unfinished,
              fun completed => absurd completed unfinished⟩
        · exact ⟨record, found, rfl, rfl, rfl, fun _ => rfl, fun _ => .inl rfl⟩

theorem ExecutionEffect.occurrences {now completedAt : Time}
    (effect : ExecutionEffect ports before held now completedAt after record counts) :
    Occurrences before (.execute held now completedAt) after := by
  have running := effect.holds.1
  refine ⟨fun job old missing found => ?_, fun job old found => ?_⟩
  · rw [effect.maintenance, Table.get?_set effect.found] at found
    split at found
    · next same =>
        subst same
        cases missing.symm.trans effect.found
    · cases missing.symm.trans found
  · rw [effect.maintenance, Table.get?_set effect.found]
    split
    · next same =>
        subst same
        cases effect.found.symm.trans found
        have unfinished : record.state ≠ .completed := by rw [running]; decide
        exact ⟨_, rfl, rfl, rfl, rfl, fun completed => absurd completed unfinished,
          fun _ => .inr ⟨held, now, completedAt, counts, rfl, rfl, rfl⟩⟩
    · exact ⟨old, found, rfl, rfl, rfl, fun _ => rfl, fun _ => .inl rfl⟩

theorem Guarantees.of_kept (sound : Sound ports after)
    (occurrences : Occurrences before operation after)
    (kept : ∀ key detail, before.details.get? key = some detail →
      after.details.get? key = some detail)
    (fresh : ∀ key detail, before.details.get? key = none → after.details.get? key = some detail →
      detail.purgedAt = none)
    (executes : ∀ held now completedAt, operation = .execute held now completedAt →
      after = before) :
    Guarantees ports before operation after where
  erasures key detail found gone := by
    cases earlier : before.details.get? key with
    | none => exact absurd (fresh key detail earlier found) gone
    | some old =>
        cases (kept key old earlier).symm.trans found
        exact .inl rfl
  settled := by
    refine ⟨fun key detail found _ => kept key detail found, fun job record found completed => ?_⟩
    obtain ⟨again, located, _, _, _, same, _⟩ := occurrences.continued job record found
    exact same completed ▸ located
  preserves held now completedAt same := executes held now completedAt same ▸ .refl before
  fingerprints held now completedAt same id audit found :=
    .inl (executes held now completedAt same ▸ found)
  verifies := sound.verifies
  opened := occurrences.opened
  continued job record found := by
    obtain ⟨again, located, key, start, scope, _, completes⟩ :=
      occurrences.continued job record found
    exact ⟨again, located, key, start, scope, completes⟩
  single job other record again found also same := by
    rw [(sound.maintenance job record found).job, (sound.maintenance other again also).job, same]
  replays job record found completed owner now leaseSeconds named low high :=
    (sound.maintenance job record found).replays found completed named ⟨low, high⟩

theorem ExecutionEffect.guarantees {now completedAt : Time}
    (effect : ExecutionEffect ports before held now completedAt after record counts)
    (earlier : Sound ports before) (sound : Sound ports after) :
    Guarantees ports before (.execute held now completedAt) after where
  erasures key detail found gone := by
    rcases effect.details key detail found with same | ⟨_, tracked⟩ | fresh
    · exact .inl same
    · exact absurd tracked.live gone
    · have cutoff : held.cutoffAt = record.startedAt := by
        rw [← (earlier.maintenance _ record effect.found).original, effect.holds.2.2.2]
      exact .inr ⟨held, now, completedAt, record, rfl, effect.found, effect.holds,
        effect.leased, fresh.live, cutoff ▸ fresh.justified⟩
  settled := by
    refine ⟨effect.kept, fun job old found completed => ?_⟩
    obtain ⟨again, located, _, _, _, same, _⟩ := effect.occurrences.continued job old found
    exact same completed ▸ located
  preserves _ _ _ _ := effect.preserves
  fingerprints _ _ _ _ id audit found := by
    rcases effect.audits id audit found with same | ⟨detail, located, fresh⟩
    · exact .inl same
    · exact .inr ⟨detail, located, fresh.erased, fresh.live⟩
  verifies := sound.verifies
  opened := effect.occurrences.opened
  continued job old found := by
    obtain ⟨again, located, key, start, scope, _, completes⟩ :=
      effect.occurrences.continued job old found
    exact ⟨again, located, key, start, scope, completes⟩
  single job other record again found also same := by
    rw [(sound.maintenance job record found).job, (sound.maintenance other again also).job, same]
  replays job record found completed owner now leaseSeconds named low high :=
    (sound.maintenance job record found).replays found completed named ⟨low, high⟩

theorem Sound.guarantees (sound : Sound ports before)
    (stepped : Steps ports before operation after) :
    Guarantees ports before operation after := by
  have later := sound.step stepped
  have unchanged : ∀ {operation}, after = before → Guarantees ports before operation after := by
    intro operation same
    subst same
    exact .of_kept later (.of_eq rfl) (fun _ _ found => found)
      (fun _ detail absent found => absurd (absent.symm.trans found)
        (Option.some_ne_none detail).symm)
      (fun _ _ _ _ => rfl)
  cases operation with
  | claim occurrenceKey owner now leaseSeconds batchSize =>
      cases result : claim ports before occurrenceKey owner now leaseSeconds batchSize with
      | error reason =>
          simp only [Steps, result, settled] at stepped
          exact unchanged stepped
      | ok committed =>
          simp only [Steps, result, settled] at stepped
          obtain ⟨maintenance, changed, effect⟩ := claim_effect result
          subst stepped
          rw [changed] at later ⊢
          exact .of_kept later effect.occurrences (fun _ _ found => found)
            (fun _ detail absent found => absurd (absent.symm.trans found)
              (Option.some_ne_none detail).symm)
            (fun _ _ _ impossible => RetentionOperation.noConfusion impossible)
  | execute held now completedAt =>
      cases result : execute ports before held now completedAt with
      | error reason =>
          simp only [Steps, result, settled] at stepped
          exact unchanged stepped
      | ok committed =>
          simp only [Steps, result, settled] at stepped
          obtain ⟨_, _, effect, _⟩ := execute_effect sound.bound result
          subst stepped
          exact effect.guarantees sound later
  | service =>
      exact .of_kept later (.of_eq stepped.maintenance) stepped.kept
        (fun key detail absent found => (stepped.tracked key detail absent found).live)
        (fun _ _ _ impossible => RetentionOperation.noConfusion impossible)

/-- Every transaction of every run keeps the guarantees, and what it settled stays
settled in everything that follows. -/
theorem retention_safe (reached : (retentionMachine ports).Reachable before)
    (stepped : (retentionMachine ports).step before operation after) :
    Guarantees ports before operation after ∧
      ∀ last, (retentionMachine ports).Run after last → Settled after last := by
  refine ⟨(Sound.reachable reached).guarantees stepped, fun last run => ?_⟩
  have start := reached.next operation stepped
  refine run.relates Settled.refl Settled.trans ?_
  intro middle label later between moved
  exact ((Sound.reachable (start.continue between)).guarantees moved).settled

end

theorem sampleDigest_complete : (String.ofList (List.replicate 64 '0')).length = 64 := by decide

def samplePorts : RetentionPorts where
  retentionPolicy := legacyPolicy
  trackingPolicy := none
  occurrenceDigest key := key
  retentionDigest _ := ⟨String.ofList (List.replicate 64 '0'), sampleDigest_complete⟩
  payloadDigest _ := ""
  projectionIntegrityDigest _ _ := ""
  snapshotDigest _ _ := ""
  completionEventId job := "audit." ++ job
  mentionsExpiry _ := false
  readWork _ _ := .ok ()
  readAction _ _ := .ok ()
  verifyRequest _ _ := .ok ()
  readDecision _ _ := .ok ()
  readArtifact _ _ _ := .ok ⟨"", ""⟩
  readReceipt _ _ := .ok ()
  readAttempt _ _ := .ok ()
  issueDraft _ content :=
    let names := String.join (content.safeMetadata.map Prod.fst)
    .ok ⟨names, names⟩
  hydrateBrief _ _ := .ok ⟨"", "", .internal⟩

def rejectedSchema : AuditEventRecord where
  feedSequence := 1
  runSequence := none
  runId := none
  scheduleId := none
  eventType := .webhookSchemaRejected
  safeMetadata := [("rejection_code", .scalar (.string "schema_invalid")),
    ("source", .scalar (.string "crm")),
    ("trigger_id", .scalar (.string "lead")), ("webhook_attempt_id", .scalar (.string "attempt-1")),
    ("workflow_id", .scalar (.string "outreach"))]
  metadataExpiresAt := 10
  occurredAt := 0
  newState := none
  columns := []
  metadataFingerprint := "rejection_codesourcetrigger_idwebhook_attempt_idworkflow_id"
  eventFingerprint := "rejection_codesourcetrigger_idwebhook_attempt_idworkflow_id"

def rejectedSchemaDetail : RetentionDetailRecord where
  category := .auditMetadata
  runId := none
  createdAt := 0
  expiresAt := 10
  purgedAt := none
  skeleton := none
  integrityDigest := none
  expiry := by decide
  purge := .inl ⟨rfl, rfl⟩

def rejectedDb : RetentionDb where
  works := .empty
  runs := .empty
  actions := .empty
  approvals := .empty
  decisions := .empty
  artifacts := .empty
  artifactParents := []
  receipts := .empty
  attempts := .empty
  workerClaims := .empty
  audits := ⟨[("audit-1", rejectedSchema)], by decide⟩
  briefs := .empty
  schedules := .empty
  details := ⟨[((.audit, "audit-1"), rejectedSchemaDetail)], by decide⟩
  maintenance := .empty

def claimedDb : RetentionDb :=
  settled rejectedDb (claim samplePorts rejectedDb "nightly" "worker" 100 60 10)

theorem nightly_identified : ∀ value ∈ ["maintenance.nightly", "nightly", "worker"],
    requireId value "retention claim identity" = .ok () := by decide

theorem nightly_ordered : 100 ≤ 100 ∧ 100 < 100 + seconds 60 := by decide

theorem nightly_versioned : 1 ≤ 1 := Nat.le_refl 1

theorem nightly_bounded : 1 ≤ 10 ∧ 10 ≤ 100 := by decide

def nightlyClaim : RetentionClaim where
  jobId := "maintenance.nightly"
  occurrenceKey := "nightly"
  owner := "worker"
  version := 1
  claimedAt := 100
  expiresAt := 100 + seconds 60
  cutoffAt := 100
  batchSize := 10
  identified := nightly_identified
  ordered := nightly_ordered
  versioned := nightly_versioned
  bounded := nightly_bounded

def erasedDb : RetentionDb := settled claimedDb (execute samplePorts claimedDb nightlyClaim 200 300)

theorem claimedDb_reachable : (retentionMachine samplePorts).Reachable claimedDb := by
  have tracked : ∀ key detail, rejectedDb.details.get? key = some detail →
      Tracked rejectedDb key detail := by
    intro key detail found
    cases List.mem_singleton.mp (Table.mem_entries_of_get? found)
    exact ⟨{}, ⟨none, 0, some 10⟩, rfl, rfl⟩
  have start : (retentionMachine samplePorts).Reachable rejectedDb := .start ⟨rfl, tracked⟩
  exact start.next (.claim "nightly" "worker" 100 60 10) rfl

theorem retention_safe_nightly :
    (erasedDb.details.get? (.audit, "audit-1")).any (fun detail => detail.purgedAt = some 200) ∧
      Guarantees samplePorts claimedDb (.execute nightlyClaim 200 300) erasedDb ∧
      ∀ last, (retentionMachine samplePorts).Run erasedDb last → Settled erasedDb last :=
  ⟨by decide +kernel, retention_safe claimedDb_reachable
    (show (retentionMachine samplePorts).step claimedDb (.execute nightlyClaim 200 300) erasedDb
      from rfl)⟩

def keptSchema : AuditEventRecord :=
  { rejectedSchema with
    safeMetadata := rejectedSchema.keptMetadata
    metadataFingerprint := "rejection_codesourcetrigger_idwebhook_attempt_id"
    eventFingerprint := "rejection_codesourcetrigger_idwebhook_attempt_id" }

/-- The erasure of optional metadata issues both fingerprints of the event again. -/
theorem fingerprints_reissued : (retentionMachine samplePorts).Reachable claimedDb ∧
    (retentionMachine samplePorts).step claimedDb (.execute nightlyClaim 200 300) erasedDb ∧
    ∃ audit kept, claimedDb.audits.get? "audit-1" = some audit ∧
    erasedDb.audits.get? "audit-1" = some kept ∧
      kept.eventFingerprint ≠ audit.eventFingerprint ∧
        kept.metadataFingerprint ≠ audit.metadataFingerprint := by
  refine ⟨claimedDb_reachable, rfl, rejectedSchema, keptSchema, ?_⟩
  decide +kernel

end MarketingAgents.Retention
