import MarketingAgents.Persistence.RetentionSafety

namespace MarketingAgents.Retention

open Library

/-! # Retention over whole runs -/

section

variable {ports : RetentionPorts} {before middle after registered erased appended : RetentionDb}
variable {now completedAt cutoff : Time} {held : RetentionClaim} {counts : RetentionCounts}
variable {key : RetainedKind × String} {detail purged : RetentionDetailRecord}

/-- Every detail that is still there stands under the run of its row. -/
def Bound (db : RetentionDb) : Prop :=
  ∀ key detail, db.details.get? key = some detail → detail.purgedAt = none →
    db.rowRun key.1 key.2 = some detail.runId

theorem Preserves.rowRun (preserves : Preserves before after) {id : String}
    (stands : before.rowRun kind id = some run) : after.rowRun kind id = some run := by
  cases kind with
  | work | receipt | brief => exact stands
  | action =>
      obtain ⟨row, found, rfl⟩ := Option.map_eq_some_iff.mp stands
      obtain ⟨kept, still, same⟩ := preserves.actions.rows id row found
      simp only [RetentionDb.rowRun, still, Option.map_some, (ExternalActionRecord.mk.inj same).1]
  | approval =>
      obtain ⟨row, found, rfl⟩ := Option.map_eq_some_iff.mp stands
      obtain ⟨kept, still, same⟩ := preserves.approvals.rows id row found
      simp only [RetentionDb.rowRun, still, Option.map_some, (ApprovalRequestRecord.mk.inj same).1]
  | artifact =>
      obtain ⟨row, found, rfl⟩ := Option.map_eq_some_iff.mp stands
      obtain ⟨kept, still, same⟩ := preserves.artifacts.rows id row found
      simp only [RetentionDb.rowRun, still, Option.map_some, (ArtifactRecord.mk.inj same).1]
  | attempt =>
      obtain ⟨row, found, rfl⟩ := Option.map_eq_some_iff.mp stands
      obtain ⟨kept, still, same⟩ := preserves.attempts.rows id row found
      simp only [RetentionDb.rowRun, still, Option.map_some, (ExecutionAttemptRecord.mk.inj same).1]
  | audit =>
      obtain ⟨row, found, rfl⟩ := Option.map_eq_some_iff.mp stands
      obtain ⟨kept, still, same⟩ := preserves.audits id row found
      simp only [RetentionDb.rowRun, still, Option.map_some, (AuditEventContent.mk.inj same).2.2.1]

theorem Tracked.preserved (tracked : Tracked before key detail)
    (preserves : Preserves before after) :
    Tracked after key detail := by
  obtain ⟨policy, source, stands, recorded⟩ := tracked
  exact ⟨policy, source, preserves.rowRun stands, recorded⟩

theorem RegistersIn.preserves (registers : RegistersIn before after) : Preserves before after := by
  obtain ⟨_, rfl, _⟩ := registers
  exact { Preserves.refl before with }

theorem RegistersIn.bound (registers : RegistersIn before after) (bound : Bound before) :
    Bound after := by
  obtain ⟨details, rfl, registered⟩ := registers
  intro key detail found live
  cases earlier : before.details.get? key with
  | none => exact (registered.tracked key detail earlier found).bound
  | some old =>
      cases (registered.kept key old earlier).symm.trans found
      exact bound key detail earlier live

theorem Justified.beforehand (registers : RegistersIn before after)
    (justified : Justified after cutoff key purged) :
    Justified before cutoff key purged := by
  obtain ⟨details, rfl, registered⟩ := registers
  have runs : ∀ {runId}, EligibleRun { before with details } cutoff runId →
    EligibleRun before cutoff runId :=
    fun eligible => ⟨eligible.terminal, eligible.actions, eligible.attempts, eligible.retries,
      eligible.claims⟩
  refine ⟨justified.expired, justified.bound, fun runId bound =>
    runs (justified.finished runId bound), ?_, ?_, justified.inactive⟩
  · intro artifact parent listed made
    obtain ⟨child, found, gone⟩ := justified.childless artifact parent listed made
    cases earlier : before.details.get? (.artifact, parent.artifactId) with
    | none => exact absurd (registered.tracked _ child earlier found).live gone
    | some old =>
        cases (registered.kept _ old earlier).symm.trans found
        exact ⟨child, rfl, gone⟩
  · intro brief id work found attached
    obtain ⟨runId, run, located, same, eligible⟩ :=
      justified.unattached brief id work found attached
    exact ⟨runId, run, located, same, runs eligible⟩

/-- The completion event is added to the audit, with its detail where expiries are tracked. -/
structure AppendEffect (before after : RetentionDb) : Prop where
  preserves : Preserves before after
  maintenance : after.maintenance = before.maintenance
  audits : ∀ id audit, before.audits.get? id = some audit → after.audits.get? id = some audit
  details : Registers after before.details after.details

theorem appendCompletion_effect
    (appends : appendCompletion ports before held counts completedAt = .ok after) :
    AppendEffect before after := by
  simp only [appendCompletion, bind_ok, requireSome_ok] at appends
  obtain ⟨fingerprints, _, audits, inserted, appends⟩ := appends
  obtain ⟨absent, lookup⟩ := Table.get?_insert inserted
  have kept : ∀ id audit, before.audits.get? id = some audit → audits.get? id = some audit := by
    intro id audit found
    have differs : id ≠ ports.completionEventId held.jobId := by
      intro same
      subst same
      cases absent.symm.trans found
    rw [lookup, if_neg differs, found]
  have preserves : ∀ details, Preserves before { before with audits, details } := fun details =>
    { Preserves.refl before with audits := fun id audit found => ⟨audit, kept id audit found, rfl⟩ }
  split at appends
  · cases pure_ok.mp appends
    exact ⟨preserves _, rfl, kept, .refl _⟩
  · simp only [bind_ok, pure_ok] at appends
    obtain ⟨details, tracked, rfl⟩ := appends
    refine ⟨preserves _, rfl, kept, track_registers ?_ tracked⟩
    intro told present
    cases present
    simp [RetentionDb.rowRun, lookup, completionEvent]

/-- A detail that an execution erased. -/
structure NewlyErased (ports : RetentionPorts) (before : RetentionDb) (cutoff : Time)
    (key : RetainedKind × String) (purged : RetentionDetailRecord) : Prop where
  erased : purged.purgedAt ≠ none
  live : ∀ old, before.details.get? key = some old → old.purgedAt = none
  justified : Justified before cutoff key purged
  verifies : ∃ retained, verifyRetained ports key purged = .ok retained

/-- What a committed execution did, from the held claim to the completed occurrence. -/
structure ExecutionEffect (ports : RetentionPorts) (before : RetentionDb) (held : RetentionClaim)
    (now completedAt : Time) (after : RetentionDb) (record : MaintenanceRunRecord)
    (counts : RetentionCounts) : Prop where
  found : before.maintenance.get? held.jobId = some record
  holds : holdsClaim record held
  leased : held.claimedAt ≤ now ∧ now < held.expiresAt
  timely : now ≤ completedAt ∧ completedAt < held.expiresAt
  total : counts.total ≤ held.batchSize
  maintenance : after.maintenance = before.maintenance.set held.jobId
    (record.complete counts completedAt)
  preserves : Preserves before after
  kept : ∀ key detail, before.details.get? key = some detail → detail.purgedAt ≠ none →
    after.details.get? key = some detail
  details : ∀ key detail, after.details.get? key = some detail →
    before.details.get? key = some detail ∨
    (before.details.get? key = none ∧ Tracked after key detail) ∨
      NewlyErased ports before held.cutoffAt key detail
  audits : ∀ id audit, before.audits.get? id = some audit → after.audits.get? id = some audit ∨
    ∃ detail, after.details.get? (.audit, id) = some detail ∧
      NewlyErased ports before held.cutoffAt (.audit, id) detail

theorem selected_live (listed : (key, detail) ∈ registered.candidates cutoff held.batchSize) :
    detail.purgedAt = none := by
  have selected := (mem_candidates listed).2
  simp only [RetentionDb.selects, Bool.and_eq_true, Option.isNone_iff_eq_none] at selected
  exact selected.1.1.1

theorem newlyErased (bound : Bound before) (registers : RegistersIn before registered)
    (listed : (key, detail) ∈ registered.candidates cutoff held.batchSize)
    (erasure : ErasedIn ports registered now key detail purged) :
      NewlyErased ports before cutoff key purged := by
  obtain ⟨found, selected⟩ := mem_candidates listed
  have live := selected_live listed
  have stands := registers.bound bound key detail found live
  refine ⟨?_, ?_, (erasure.justified stands selected).beforehand registers, ?_⟩
  · obtain ⟨_, _, _, _, witnessed⟩ := erasure.effect
    rw [witnessed.purgedAt]
    exact Option.some_ne_none now
  · intro old earlier
    obtain ⟨_, rfl, registered⟩ := registers
    cases (registered.kept key old earlier).symm.trans found
    exact live
  · obtain ⟨_, _, _, effect, witnessed⟩ := erasure.effect
    exact witnessed.verifies effect.identified

theorem execute_effect (bound : Bound before)
    (executed : execute ports before held now completedAt = .ok committed) :
    ∃ record counts, ExecutionEffect ports before held now completedAt committed.db record counts ∧
      committed.result = RetentionResult.build held.occurrenceKey counts completedAt false := by
  simp only [execute, bind_ok, require_ok, requireSome_ok, pure_ok] at executed
  obtain ⟨_, leased, record, found, _, holds, registered, legacy, ⟨erased, counts⟩, batch, _,
    timely, appended, appends, rfl⟩ := executed
  have registers := registerLegacy_registers legacy
  have listed : ∀ candidate ∈ registered.candidates held.cutoffAt held.batchSize,
      registered.details.get? candidate.1 = some candidate.2 :=
        fun candidate member => (mem_candidates member).1
  obtain ⟨effect, total⟩ := eraseAll_effect nodup_candidates listed batch
  have append := appendCompletion_effect appends
  have maintenance : appended.maintenance = before.maintenance := by
    rw [append.maintenance, effect.maintenance]
    obtain ⟨_, rfl, _⟩ := registers
    rfl
  have candidateOf : ∀ key,
    key ∈ (registered.candidates held.cutoffAt held.batchSize).map Prod.fst →
      ∃ purged, appended.details.get? key = some purged ∧
          NewlyErased ports before held.cutoffAt key purged := by
    intro key member
    obtain ⟨⟨key, detail⟩, listed, rfl⟩ := List.mem_map.mp member
    obtain ⟨purged, located, erasure⟩ := effect.erased (key, detail) listed
    exact ⟨purged, append.details.kept key purged located,
      newlyErased bound registers listed erasure⟩
  refine ⟨record, counts, ⟨found, holds, leased, timely, ?_, ?_, ?_, ?_, ?_, ?_⟩, rfl⟩
  · rw [total]
    exact length_candidates_le
  · dsimp only
    rw [maintenance]
  · have preserves := (registers.preserves.trans effect.preserves).trans append.preserves
    exact { preserves with }
  · intro key detail earlier gone
    obtain ⟨_, rfl, registration⟩ := registers
    have still := registration.kept key detail earlier
    apply append.details.kept
    rw [effect.others key, still]
    intro member
    obtain ⟨⟨key, other⟩, listed, rfl⟩ := List.mem_map.mp member
    cases still.symm.trans (mem_candidates listed).1
    exact gone (selected_live listed)
  · intro key detail located
    by_cases member : key ∈ (registered.candidates held.cutoffAt held.batchSize).map Prod.fst
    · obtain ⟨purged, same, fresh⟩ := candidateOf key member
      cases same.symm.trans located
      exact .inr (.inr fresh)
    · have untouched := effect.others key member
      cases between : erased.details.get? key with
      | none =>
          have tracked := append.details.tracked key detail between located
          have absent : before.details.get? key = none := by
            obtain ⟨_, rfl, registration⟩ := registers
            cases earlier : before.details.get? key with
            | none => rfl
            | some old =>
                cases (registration.kept key old earlier).symm.trans (untouched.symm.trans between)
          exact .inr (.inl ⟨absent, tracked⟩)
      | some kept =>
          cases (append.details.kept key kept between).symm.trans located
          rw [untouched] at between
          cases earlier : before.details.get? key with
          | some old =>
              obtain ⟨_, rfl, registration⟩ := registers
              cases (registration.kept key old earlier).symm.trans between
              exact .inl rfl
          | none =>
              have tracked : Tracked before key detail := by
                obtain ⟨_, rfl, registration⟩ := registers
                exact registration.tracked key detail earlier between
              have preserves := (registers.preserves.trans effect.preserves).trans append.preserves
              have later : Tracked appended key detail := tracked.preserved preserves
              exact .inr (.inl ⟨rfl, later⟩)
  · intro id audit located
    by_cases member : (RetainedKind.audit, id) ∈
      (registered.candidates held.cutoffAt held.batchSize).map Prod.fst
    · exact .inr (candidateOf _ member)
    · apply Or.inl
      apply append.audits
      rw [effect.audits id member]
      obtain ⟨_, rfl, _⟩ := registers
      exact located

/-- How a claim changed the occurrences. -/
inductive ClaimEffect (ports : RetentionPorts) (occurrenceKey owner : String) (now : Time)
    (leaseSeconds batchSize : Nat) (before after : Table String MaintenanceRunRecord) : Prop where
  | unchanged (same : after = before)
  | opened (identified : requireId occurrenceKey "retention occurrence" = .ok ())
      (bounded : 1 ≤ batchSize ∧ batchSize ≤ 100)
      (inserted : before.insert? (jobId ports occurrenceKey)
        (firstRecord occurrenceKey owner now leaseSeconds batchSize) = some after)
  | takenOver (record : MaintenanceRunRecord)
      (found : before.get? (jobId ports occurrenceKey) = some record)
      (running : record.state = .running)
      (moved : after = before.set (jobId ports occurrenceKey)
        { record with
          version := record.version + 1, lease := some ⟨owner, now, now + seconds leaseSeconds⟩ })

theorem claim_effect {occurrenceKey owner : String} {leaseSeconds batchSize : Nat}
    {committed : Committed ClaimOutcome}
    (claimed : claim ports before occurrenceKey owner now leaseSeconds batchSize = .ok committed) :
    ∃ maintenance, committed.db = { before with maintenance } ∧
      ClaimEffect ports occurrenceKey owner now leaseSeconds batchSize before.maintenance
        maintenance := by
  have same : ∃ maintenance, before = { before with maintenance } ∧
      ClaimEffect ports occurrenceKey owner now leaseSeconds batchSize before.maintenance
        maintenance :=
    ⟨before.maintenance, rfl, .unchanged rfl⟩
  simp only [claim, bind_ok, require_ok] at claimed
  obtain ⟨_, identified, _, _, _, limits, claimed⟩ := claimed
  split at claimed
  · simp only [claimFirst, bind_ok] at claimed
    obtain ⟨_, _, claimed⟩ := claimed
    split at claimed
    · cases pure_ok.mp claimed
      exact same
    · split at claimed
      · cases pure_ok.mp claimed
        exact same
      · next maintenance inserted =>
          cases pure_ok.mp claimed
          exact ⟨maintenance, rfl, .opened identified ⟨limits.1, limits.2.1⟩ inserted⟩
  · next record found =>
      simp only [claimAgain, bind_ok, require_ok] at claimed
      obtain ⟨_, _, _, _, claimed⟩ := claimed
      split at claimed
      · simp only [bind_ok, pure_ok] at claimed
        obtain ⟨_, _, rfl⟩ := claimed
        exact same
      · split at claimed
        · next free =>
            cases pure_ok.mp claimed
            exact ⟨_, rfl, .takenOver record found free.1 rfl⟩
        · cases pure_ok.mp claimed
          exact same

/-- An occurrence as its claims and its execution leave it. -/
structure SoundRecord (ports : RetentionPorts) (job : String)
    (record : MaintenanceRunRecord) : Prop where
  job : job = jobId ports record.occurrenceKey
  identified : requireId record.occurrenceKey "retention occurrence" = .ok ()
  kind : record.jobKind = jobKind
  original : record.scope.cutoffAt = record.startedAt
  bounded : 1 ≤ record.scope.batchSize ∧ record.scope.batchSize ≤ 100
  completed : record.state = .completed → ∃ counts completedAt, record.counts = some counts ∧
    record.completedAt = some completedAt ∧ counts.total ≤ 100

structure Sound (ports : RetentionPorts) (db : RetentionDb) : Prop where
  bound : Bound db
  verifies : ∀ key detail, db.details.get? key = some detail → detail.purgedAt ≠ none →
    ∃ retained, verifyRetained ports key detail = .ok retained
  maintenance : ∀ job record, db.maintenance.get? job = some record → SoundRecord ports job record

theorem ClaimEffect.sound {leaseSeconds batchSize : Nat}
    (effect : ClaimEffect ports occurrenceKey owner now leaseSeconds batchSize maintenance changed)
    (sound : ∀ job record, maintenance.get? job = some record → SoundRecord ports job record) :
    ∀ job record, changed.get? job = some record → SoundRecord ports job record := by
  intro job record located
  cases effect with
  | unchanged same => exact sound job record (same ▸ located)
  | opened identified bounded inserted =>
      rw [(Table.get?_insert inserted).2] at located
      split at located
      · next same =>
          cases located
          exact ⟨same, identified, rfl, rfl, bounded,
            fun impossible => MaintenanceState.noConfusion impossible⟩
      · exact sound job record located
  | takenOver old found running moved =>
      rw [moved, Table.get?_set found] at located
      split at located
      · next same =>
          cases located
          have earlier := sound _ old found
          exact ⟨same ▸ earlier.job, earlier.identified, earlier.kind, earlier.original,
            earlier.bounded, fun completed => absurd (running.symm.trans completed) (by decide)⟩
      · exact sound job record located

theorem ExecutionEffect.sound
    (effect : ExecutionEffect ports before held now completedAt after record counts)
    (sound : Sound ports before) :
    Sound ports after := by
  refine ⟨?_, ?_, ?_⟩
  · intro key detail located live
    rcases effect.details key detail located with earlier | ⟨_, tracked⟩ | fresh
    · exact effect.preserves.rowRun (sound.bound key detail earlier live)
    · exact tracked.bound
    · exact absurd live fresh.erased
  · intro key detail located gone
    rcases effect.details key detail located with earlier | ⟨_, tracked⟩ | fresh
    · exact sound.verifies key detail earlier gone
    · exact absurd tracked.live gone
    · exact fresh.verifies
  · intro job kept located
    rw [effect.maintenance, Table.get?_set effect.found] at located
    split at located
    · next same =>
        cases located
        have earlier := sound.maintenance _ record effect.found
        have limited : counts.total ≤ 100 := effect.total.trans held.bounded.2
        exact ⟨same ▸ earlier.job, earlier.identified, earlier.kind, earlier.original,
          earlier.bounded, fun _ => ⟨counts, completedAt, rfl, rfl, limited⟩⟩
    · exact sound.maintenance job kept located

theorem Sound.step (sound : Sound ports before)
    (stepped : Steps ports before operation after) : Sound ports after := by
  cases operation with
  | claim occurrenceKey owner now leaseSeconds batchSize =>
      cases result : claim ports before occurrenceKey owner now leaseSeconds batchSize with
      | error reason =>
          simp only [Steps, result, settled] at stepped
          exact stepped ▸ sound
      | ok committed =>
          simp only [Steps, result, settled] at stepped
          obtain ⟨maintenance, changed, effect⟩ := claim_effect result
          rw [stepped, changed]
          exact ⟨sound.bound, sound.verifies, effect.sound sound.maintenance⟩
  | execute held now completedAt =>
      cases result : execute ports before held now completedAt with
      | error reason =>
          simp only [Steps, result, settled] at stepped
          exact stepped ▸ sound
      | ok committed =>
          simp only [Steps, result, settled] at stepped
          obtain ⟨_, _, effect, _⟩ := execute_effect sound.bound result
          rw [stepped]
          exact effect.sound sound
  | service =>
      refine ⟨?_, ?_, fun job record located =>
        sound.maintenance job record (stepped.maintenance ▸ located)⟩
      · intro key detail located live
        cases earlier : before.details.get? key with
        | none => exact (stepped.tracked key detail earlier located).bound
        | some old =>
            cases (stepped.kept key old earlier).symm.trans located
            exact stepped.runs _ _ _ (sound.bound key detail earlier live)
      · intro key detail located gone
        cases earlier : before.details.get? key with
        | none => exact absurd (stepped.tracked key detail earlier located).live gone
        | some old =>
            cases (stepped.kept key old earlier).symm.trans located
            exact sound.verifies key detail earlier gone

theorem Sound.reachable (reached : (retentionMachine ports).Reachable before) :
    Sound ports before := by
  refine reached.invariant (Sound ports) ?_ (fun sound stepped => sound.step stepped)
  intro db initial
  refine ⟨fun key detail found _ => (initial.2 key detail found).bound, ?_, ?_⟩
  · intro key detail found gone
    exact absurd (initial.2 key detail found).live gone
  · intro job record found
    rw [initial.1] at found
    cases found

end

end MarketingAgents.Retention
