import MarketingAgents.Persistence.RetentionEffects

namespace MarketingAgents.Retention

open Library

/-! # What a whole batch does -/

section

variable {ports : RetentionPorts} {db before after : RetentionDb} {now : Time}
variable {key : RetainedKind × String} {detail purged : RetentionDetailRecord} {erasure : Erasure}

theorem trackingRecord_ok (tracked : trackingRecord kind policy source = .ok detail) :
    detail.purgedAt = none ∧ detail.runId = source.runId ∧ detail.category = kind.category := by
  unfold trackingRecord at tracked
  dsimp only at tracked
  split at tracked
  · cases tracked
    exact ⟨rfl, rfl, rfl⟩
  · cases tracked

theorem Tracked.live (tracked : Tracked db key detail) : detail.purgedAt = none := by
  obtain ⟨_, _, _, recorded⟩ := tracked
  exact (trackingRecord_ok recorded).1

theorem Tracked.bound (tracked : Tracked db key detail) :
    db.rowRun key.1 key.2 = some detail.runId := by
  obtain ⟨_, _, bound, recorded⟩ := tracked
  rw [bound, (trackingRecord_ok recorded).2.1]

/-- Every detail is still there, and new ones are tracked details of rows. -/
structure Registers (db : RetentionDb)
    (before after : Table (RetainedKind × String) RetentionDetailRecord) : Prop where
  kept : ∀ key detail, before.get? key = some detail → after.get? key = some detail
  tracked : ∀ key detail, before.get? key = none → after.get? key = some detail →
    Tracked db key detail

theorem Registers.refl (details : Table (RetainedKind × String) RetentionDetailRecord) :
    Registers db details details :=
  ⟨fun _ _ found => found, fun _ _ absent found => nomatch absent.symm.trans found⟩

theorem Registers.trans (left : Registers db first second) (right : Registers db second third) :
      Registers db first third where
  kept key detail found := right.kept key detail (left.kept key detail found)
  tracked key detail absent found := by
    cases between : second.get? key with
    | none => exact right.tracked key detail between found
    | some earlier =>
        cases (right.kept key earlier between).symm.trans found
        exact left.tracked key detail absent between

variable {details registered : Table (RetainedKind × String) RetentionDetailRecord}
  {kind : RetainedKind}

theorem track_registers {source : String × Option TrackedSource}
    (bound : ∀ told, source.2 = some told → db.rowRun kind source.1 = some told.runId)
    (tracked : track kind policy details source = .ok registered) :
      Registers db details registered := by
  unfold track at tracked
  split at tracked
  · cases tracked
    exact .refl _
  · next record present =>
      simp only [bind_ok, requireSome_ok] at tracked
      obtain ⟨detail, recorded, inserted⟩ := tracked
      obtain ⟨absent, lookup⟩ := Table.get?_insert inserted
      constructor
      · intro key old found
        have differs : key ≠ (kind, source.1) := by
          intro same
          subst same
          cases absent.symm.trans found
        rw [lookup, if_neg differs, found]
      · intro key fresh missing found
        rw [lookup] at found
        split at found
        · next same =>
            cases found
            subst same
            exact ⟨policy, record, bound record present, recorded⟩
        · cases missing.symm.trans found

theorem tracks_register {sources : List (String × Option TrackedSource)}
    (bound : ∀ source ∈ sources, ∀ told, source.2 = some told →
      db.rowRun kind source.1 = some told.runId)
    (tracked : sources.foldlM (track kind policy) details = .ok registered) :
      Registers db details registered := by
  induction sources generalizing details with
  | nil =>
      cases tracked
      exact .refl _
  | cons source rest ih =>
      simp only [List.foldlM_cons, bind_ok] at tracked
      obtain ⟨middle, first, others⟩ := tracked
      rw [List.forall_mem_cons] at bound
      exact (track_registers bound.1 first).trans (ih bound.2 others)

theorem told_of_listed {ρ : Type} {table : Table String ρ} {tell : ρ → TrackedSource}
    {source : String × Option TrackedSource} {told : TrackedSource}
    (listed : source ∈ tellRows table tell) (present : source.2 = some told) :
    ∃ row, table.get? source.1 = some row ∧ tell row = told := by
  obtain ⟨entry, member, rfl⟩ := List.mem_map.mp listed
  exact ⟨entry.2, Table.get?_eq_some_iff.mpr member, Option.some.inj present⟩

theorem sources_bound {mentionsExpiry : Document → Bool} {source : String × Option TrackedSource}
    (listed : source ∈ db.sources mentionsExpiry kind) :
    ∀ told, source.2 = some told → db.rowRun kind source.1 = some told.runId := by
  intro told present
  cases kind with
  | work | receipt =>
      rw [RetentionDb.sources] at listed
      obtain ⟨_, _, rfl⟩ := told_of_listed listed present
      rfl
  | brief =>
      rw [RetentionDb.sources] at listed
      obtain ⟨_, _, tells⟩ := List.mem_filterMap.mp listed
      split at tells
      · cases tells
      · split at tells <;> cases tells
        cases present
      · cases tells
        cases present
        rfl
  | action | approval | artifact | attempt | audit =>
      rw [RetentionDb.sources] at listed
      obtain ⟨row, found, rfl⟩ := told_of_listed listed present
      simp [RetentionDb.rowRun, found]

theorem unregistered_listed {mentionsExpiry : Document → Bool}
    {source : String × Option TrackedSource} {limit : Nat}
    (listed : source ∈ db.unregistered mentionsExpiry kind limit) :
      source ∈ db.sources mentionsExpiry kind := by
  have sorted := List.mem_of_mem_take listed
  rw [List.mem_insertionSort] at sorted
  exact (List.mem_filter.mp sorted).1

/-- Registration changes nothing but the details. -/
def RegistersIn (before after : RetentionDb) : Prop :=
  ∃ details, after = { before with details } ∧ Registers before before.details details

theorem RegistersIn.refl (db : RetentionDb) : RegistersIn db db := ⟨db.details, rfl, .refl _⟩

theorem RegistersIn.trans (left : RegistersIn before middle) (right : RegistersIn middle after) :
    RegistersIn before after := by
  obtain ⟨_, rfl, first⟩ := left
  obtain ⟨details, rfl, second⟩ := right
  exact ⟨details, rfl, first.trans ⟨second.kept, second.tracked⟩⟩

theorem registerKind_registers (registered : registerKind ports page kind = .ok next) :
    RegistersIn page.1 next.1 := by
  simp only [registerKind, bind_ok, pure_ok] at registered
  obtain ⟨details, tracked, rfl⟩ := registered
  refine ⟨details, rfl, tracks_register ?_ tracked⟩
  intro source listed
  exact sources_bound (unregistered_listed listed)

theorem registerKinds_register {kinds : List RetainedKind}
    (registered : kinds.foldlM (registerKind ports) page = .ok next) :
      RegistersIn page.1 next.1 := by
  induction kinds generalizing page with
  | nil =>
      cases registered
      exact .refl _
  | cons kind rest ih =>
      simp only [List.foldlM_cons, bind_ok] at registered
      obtain ⟨middle, first, others⟩ := registered
      exact (registerKind_registers first).trans (ih others)

theorem registerLegacy_registers {limit : Nat}
    (registered : registerLegacy ports before limit = .ok after) :
    RegistersIn before after := by
  simp only [registerLegacy, bind_ok, pure_ok] at registered
  obtain ⟨page, folded, rfl⟩ := registered
  exact registerKinds_register folded

theorem mem_candidates {cutoff : Time} {limit : Nat}
    (listed : (key, detail) ∈ db.candidates cutoff limit) :
    db.details.get? key = some detail ∧ db.selects cutoff key detail := by
  have sorted := List.mem_of_mem_take listed
  rw [List.mem_insertionSort] at sorted
  obtain ⟨member, selected⟩ := List.mem_filter.mp sorted
  exact ⟨Table.get?_eq_some_iff.mpr member, selected⟩

theorem nodup_candidates {cutoff : Time} {limit : Nat} :
    ((db.candidates cutoff limit).map Prod.fst).Nodup := by
  have distinct : ((db.details.entries.filter fun entry => db.selects cutoff entry.1 entry.2).map
    Prod.fst).Nodup :=
    db.details.nodup.sublist (List.filter_sublist.map _)
  have sorted := ((List.perm_insertionSort DueBefore _).map Prod.fst).nodup_iff.mpr distinct
  exact sorted.sublist ((List.take_sublist _ _).map _)

theorem length_candidates_le {cutoff : Time} {limit : Nat} :
    (db.candidates cutoff limit).length ≤ limit :=
  List.length_take_le _ _

/-- What the witness of an erased detail says. -/
structure Witnessed (ports : RetentionPorts) (key : RetainedKind × String)
    (detail purged : RetentionDetailRecord) (erasure : Erasure) (now : Time) : Prop where
  purgedAt : purged.purgedAt = some now
  runId : purged.runId = erasure.run.or detail.runId
  expiresAt : purged.expiresAt = detail.expiresAt
  skeleton : purged.skeleton = some ⟨erasure.publicValues, erasure.binding⟩
  digest : purged.integrityDigest = some (ports.retentionDigest (retentionMaterial key purged))
  expired : detail.expiresAt ≤ now

theorem purged_ok (erased : detail.purged ports key erasure now = .ok purged) :
    Witnessed ports key detail purged erasure now := by
  unfold RetentionDetailRecord.purged at erased
  split at erased
  · next expired =>
      cases erased
      exact ⟨rfl, rfl, rfl, rfl, rfl, expired⟩
  · cases erased

theorem Witnessed.verifies (witnessed : Witnessed ports key detail purged erasure now)
    (identified : requireId key.2 "retained record ID" = .ok ()) :
    ∃ retained, verifyRetained ports key purged = .ok retained := by
  have ordered : purged.createdAt < purged.expiresAt ∧ purged.expiresAt ≤ now :=
    ⟨purged.expiry, witnessed.expiresAt.symm ▸ witnessed.expired⟩
  simp [verifyRetained, witnessed.purgedAt, witnessed.digest, witnessed.skeleton, identified,
    ordered, require, requireSome, bind, Except.bind, pure, Except.pure]

/-- What one erasure of a batch did, seen from the tables that the batch started with. -/
structure ErasedIn (ports : RetentionPorts) (db : RetentionDb) (now : Time)
    (key : RetainedKind × String) (detail purged : RetentionDetailRecord) : Prop where
  effect : ∃ middle erasure, Preserves db middle ∧ ErasureEffect middle key.1 key.2 erasure ∧
    Witnessed ports key detail purged erasure now

structure BatchEffect (ports : RetentionPorts) (before after : RetentionDb) (now : Time)
    (candidates : List ((RetainedKind × String) × RetentionDetailRecord)) : Prop where
  preserves : Preserves before after
  maintenance : after.maintenance = before.maintenance
  others : ∀ key, key ∉ candidates.map Prod.fst → after.details.get? key = before.details.get? key
  audits : ∀ id, (RetainedKind.audit, id) ∉ candidates.map Prod.fst →
    after.audits.get? id = before.audits.get? id
  erased : ∀ candidate ∈ candidates, ∃ purged, after.details.get? candidate.1 = some purged ∧
    ErasedIn ports before now candidate.1 candidate.2 purged

theorem erase_ok {candidate : (RetainedKind × String) × RetentionDetailRecord}
    (found : db.details.get? candidate.1 = some candidate.2)
    (erased : erase ports now db candidate = .ok after) :
    BatchEffect ports db after now [candidate] := by
  simp only [erase, bind_ok, pure_ok] at erased
  obtain ⟨erasure, content, purged, witness, rfl⟩ := erased
  have effect := eraseContent_effect content
  have present : erasure.db.details.get? candidate.1 = some candidate.2 := by
    rw [effect.details, found]
  refine ⟨{ effect.preserves with }, effect.maintenance, ?_, ?_, ?_⟩
  · intro key other
    rw [List.map_singleton, List.mem_singleton] at other
    exact (Table.get?_set_ne other).trans (by rw [effect.details])
  · intro id other
    apply effect.audits
    rw [List.map_singleton, List.mem_singleton] at other
    by_contra same
    push Not at same
    exact other (Prod.ext same.1.symm same.2)
  · intro listed member
    cases List.mem_singleton.mp member
    exact ⟨purged, Table.get?_set_self present, ⟨db, erasure, .refl db, effect, purged_ok witness⟩⟩

theorem BatchEffect.cons {candidate : (RetainedKind × String) × RetentionDetailRecord}
    {rest : List ((RetainedKind × String) × RetentionDetailRecord)}
    (distinct : candidate.1 ∉ rest.map Prod.fst)
    (first : BatchEffect ports before middle now [candidate])
    (others : BatchEffect ports middle after now rest) :
    BatchEffect ports before after now (candidate :: rest) := by
  refine ⟨first.preserves.trans others.preserves,
    others.maintenance.trans first.maintenance, ?_, ?_, ?_⟩
  · intro key unlisted
    rw [List.map_cons, List.mem_cons, not_or] at unlisted
    rw [others.others key unlisted.2, first.others key (by simpa using unlisted.1)]
  · intro id unlisted
    rw [List.map_cons, List.mem_cons, not_or] at unlisted
    rw [others.audits id unlisted.2, first.audits id (by simpa using unlisted.1)]
  · intro listed member
    rcases List.mem_cons.mp member with rfl | later
    · obtain ⟨purged, found, erased⟩ := first.erased listed (List.mem_singleton.mpr rfl)
      exact ⟨purged, (others.others listed.1 distinct).trans found, erased⟩
    · obtain ⟨purged, found, ⟨between, erasure, preserved, rest⟩⟩ := others.erased listed later
      exact ⟨purged, found, ⟨between, erasure, first.preserves.trans preserved, rest⟩⟩

theorem eraseAll_effect {candidates : List ((RetainedKind × String) × RetentionDetailRecord)}
    {counts : RetentionCounts} (distinct : (candidates.map Prod.fst).Nodup)
    (listed : ∀ candidate ∈ candidates, db.details.get? candidate.1 = some candidate.2)
    (erased : eraseAll ports now db candidates = .ok (after, counts)) :
    BatchEffect ports db after now candidates ∧ counts.total = candidates.length := by
  have general : ∀ (candidates : List ((RetainedKind × String) × RetentionDetailRecord))
    (start : RetentionDb)
      (counted : RetentionCounts), (candidates.map Prod.fst).Nodup →
      (∀ candidate ∈ candidates, start.details.get? candidate.1 = some candidate.2) →
      candidates.foldlM (fun page candidate => do
          let db ← erase ports now page.1 candidate
          return (db, page.2.increment candidate.2.category)) (start, counted) =
            .ok (after, counts) →
      BatchEffect ports start after now candidates ∧
          counts.total = counted.total + candidates.length := by
    intro candidates
    induction candidates with
    | nil =>
        intro start counted _ _ folded
        cases folded
        exact ⟨⟨.refl _, rfl, fun _ _ => rfl, fun _ _ => rfl, fun _ none => nomatch none⟩, rfl⟩
    | cons candidate rest ih =>
        intro start counted distinct listed folded
        simp only [List.foldlM_cons, bind_ok, pure_ok] at folded
        obtain ⟨_, ⟨middle, erased, rfl⟩, others⟩ := folded
        rw [List.map_cons, List.nodup_cons] at distinct
        rw [List.forall_mem_cons] at listed
        have first := erase_ok listed.1 erased
        have still : ∀ later ∈ rest, middle.details.get? later.1 = some later.2 := by
          intro later member
          have differs : later.1 ≠ candidate.1 := fun same =>
            distinct.1 (same ▸ List.mem_map_of_mem (f := Prod.fst) member)
          rw [first.others later.1 (by simpa using differs), listed.2 later member]
        obtain ⟨effect, total⟩ := ih middle _ distinct.2 still others
        refine ⟨first.cons distinct.1 effect, ?_⟩
        rw [total, RetentionCounts.total_increment, List.length_cons]
        omega
  have outcome := general candidates db .zero distinct listed erased
  simpa using outcome

end

end MarketingAgents.Retention
