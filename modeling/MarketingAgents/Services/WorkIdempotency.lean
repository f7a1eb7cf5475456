import MarketingAgents.Library.RelatedLists
import MarketingAgents.Services.WorkReceipts

namespace MarketingAgents

open Library

/-! # One work item for each source key -/

/-- A row stays as it is or loses its stored input. -/
def WorkItemRow.Becomes (sha256 : String → String) (row next : WorkItemRow) : Prop :=
  next = row ∨ ∃ work sealKey, row = .live work ∧ next = .erased (work.erase sha256) sealKey

namespace WorkItemRow

variable {sha256 : String → String} {row next last : WorkItemRow}

theorem Becomes.refl (row : WorkItemRow) : row.Becomes sha256 row := .inl rfl

theorem Becomes.trans (first : row.Becomes sha256 next) (second : next.Becomes sha256 last) :
    row.Becomes sha256 last := by
  rcases first with rfl | ⟨work, sealKey, rfl, rfl⟩
  · exact second
  · rcases second with rfl | ⟨_, _, impossible, _⟩
    · exact .inr ⟨work, sealKey, rfl, rfl⟩
    · cases impossible

theorem Becomes.identity (becomes : row.Becomes sha256 next) :
    next.id = row.id ∧ next.sourceKey = row.sourceKey ∧ next.content.digests = row.content.digests ∧
      next.configurationRevision = row.configurationRevision := by
  rcases becomes with rfl | ⟨work, sealKey, rfl, rfl⟩ <;> exact ⟨rfl, rfl, rfl, rfl⟩

theorem becomes_erase (sealKey : String) : row.Becomes sha256 (row.erase sha256 sealKey) := by
  cases row with
  | live work => exact .inr ⟨work, sealKey, rfl, rfl⟩
  | erased work key => exact .inl rfl

end WorkItemRow

/-- A run with its exact receipt and with later transitions behind it. -/
structure ReceivedRun.Proper (received : ReceivedRun) : Prop where
  valid : (initialRunSnapshot received.run).validate = .ok ()
  transitions : ∃ initial later, initialReceivedTransition
    (initialRunSnapshot received.run) = .ok initial ∧
    received.transitions = initial :: later ∧ ∀ transition ∈ later, 2 ≤ transition.sequence
  event : received.receivedEvent = some (runReceivedEvent (initialRunSnapshot received.run))
  version : 1 ≤ received.run.version

/-- The run of a work item. -/
structure ReceivedRun.Pairs (row : WorkItemRow) (received : ReceivedRun) : Prop where
  workItemId : received.run.workItemId = row.id
  configurationRevision : received.run.configurationRevision = row.configurationRevision
  proper : received.Proper

namespace ReceivedRun

variable {received : ReceivedRun} {input : RunTransitionInput}

theorem transition_advanced {run : RunRecord} (advanced : run.transition input = .ok outcome) :
    ∃ newState reasonCode approvalRequired,
      outcome = run.advanced input newState reasonCode approvalRequired := by
  unfold RunRecord.transition at advanced
  split at advanced
  · cases advanced
  · split at advanced
    · cases advanced
    · split at advanced
      · cases advanced
      · dsimp only at advanced
        split at advanced
        · cases advanced
        · exact ⟨_, _, _, (Except.ok.inj advanced).symm⟩

theorem advance_snapshot (received : ReceivedRun) (input : RunTransitionInput) :
    initialRunSnapshot (received.advance input).run = initialRunSnapshot received.run := by
  unfold advance
  split
  · rename_i outcome advanced
    obtain ⟨_, _, _, rfl⟩ := transition_advanced advanced
    rfl
  · rfl

theorem Proper.advance (proper : received.Proper) : (received.advance input).Proper := by
  have snapshot := advance_snapshot received input
  obtain ⟨initial, later, expected, whole, behind⟩ := proper.transitions
  have version := proper.version
  constructor
  · rw [snapshot]
    exact proper.valid
  · rw [snapshot]
    unfold ReceivedRun.advance
    split
    · rename_i outcome advanced
      obtain ⟨_, _, _, rfl⟩ := transition_advanced advanced
      refine ⟨initial, later ++ [_], expected, by rw [whole, List.cons_append], ?_⟩
      intro transition member
      rcases List.mem_append.mp member with earlier | new
      · exact behind transition earlier
      · rw [List.mem_singleton.mp new]
        exact Nat.succ_le_succ version
    · exact ⟨initial, later, expected, whole, behind⟩
  · rw [snapshot]
    unfold ReceivedRun.advance
    split <;> exact proper.event
  · unfold ReceivedRun.advance
    split
    · rename_i outcome advanced
      obtain ⟨_, _, _, rfl⟩ := transition_advanced advanced
      exact Nat.le_succ_of_le version
    · exact version

theorem Pairs.advance (pairs : received.Pairs row) : (received.advance input).Pairs row where
  workItemId := by
    have same : (initialRunSnapshot (received.advance input).run).workItemId =
        received.run.workItemId := by
      rw [advance_snapshot]
      rfl
    exact same.trans pairs.workItemId
  configurationRevision := by
    have same : (initialRunSnapshot (received.advance input).run).configurationRevision =
        received.run.configurationRevision := by
      rw [advance_snapshot]
      rfl
    exact same.trans pairs.configurationRevision
  proper := pairs.proper.advance

end ReceivedRun

/-- One run for each work item, and one work item for each source key. -/
structure ReceiptRows.Proper (rows : ReceiptRows) : Prop where
  keys : (rows.works.map (·.sourceKey)).Nodup
  ids : (rows.works.map (·.id)).Nodup
  runIds : (rows.runs.map (·.run.id)).Nodup
  paired : List.Forall₂ (fun row received => received.Pairs row) rows.works rows.runs

/-- Committed tables and later ones. -/
structure ReceiptRows.Precedes (sha256 : String → String) (earlier later : ReceiptRows) : Prop where
  works : ∀ row ∈ earlier.works, ∃ next ∈ later.works, row.Becomes sha256 next
  runs : ∀ received ∈ earlier.runs, ∃ next ∈ later.runs,
    initialRunSnapshot next.run = initialRunSnapshot received.run

structure ReceiptSystem.Sound {φ : Type} (support : DigestSupport φ) (digests : ReceiptDigests)
    (system : ReceiptSystem) : Prop where
  newest : system.rows ∈ system.history
  proper : ∀ earlier ∈ system.history, earlier.Proper
  precedes : ∀ earlier ∈ system.history, earlier.Precedes digests.sha256 system.rows
  /-- One admission inserted the row that a source key ever had, which was possibly erased since. -/
  issued : ∀ row ∈ system.rows.works, ∃ request :
    WorkReceiptRequest, request.WellFormed support digests ∧
    ∀ earlier ∈ system.history, ∀ old ∈ earlier.works, old.sourceKey = row.sourceKey →
      (WorkItemRow.live (request.workItem digests)).Becomes digests.sha256 old

namespace ReceiptRows

variable {φ : Type} {support : DigestSupport φ} {digests : ReceiptDigests}
  {rows next last : ReceiptRows} {sha256 : String → String}
  {request : WorkReceiptRequest} {sight : ReceiptSight} {receipt : WorkRunReceipt}

theorem Precedes.refl (rows : ReceiptRows) : rows.Precedes sha256 rows where
  works row member := ⟨row, member, .refl row⟩
  runs received member := ⟨received, member, rfl⟩

theorem Precedes.trans (first : rows.Precedes sha256 next) (second : next.Precedes sha256 last) :
    rows.Precedes sha256 last where
  works row member := by
    obtain ⟨middle, found, becomes⟩ := first.works row member
    obtain ⟨final, present, becomesFinal⟩ := second.works middle found
    exact ⟨final, present, becomes.trans becomesFinal⟩
  runs received member := by
    obtain ⟨middle, found, same⟩ := first.runs received member
    obtain ⟨final, present, sameFinal⟩ := second.runs middle found
    exact ⟨final, present, sameFinal.trans same⟩

theorem admitEnvelope_ok (admits : request.admitEnvelope digests sight rows = .ok admitted) :
    admitted.2 = .replayed ∨
      admitted = (request.workItem digests, .created) ∧
        rows.conflictsWork (request.workItem digests) = false := by
  unfold WorkReceiptRequest.admitEnvelope at admits
  split at admits
  · split at admits
    · cases admits
    · split at admits
      · cases admits
      · rename_i existing _
        cases replayed : existing.replay digests request.digestKey (request.workItem digests) with
        | error error =>
            rw [replayed] at admits
            cases admits
        | ok work =>
            rw [replayed] at admits
            cases admits
            exact .inl rfl
  · rename_i unique
    rw [Bool.not_eq_true] at unique
    exact .inr ⟨(Except.ok.inj admits).symm, unique⟩

theorem receiveRun_created {received : ReceivedRun}
    (receives : request.receiveRun sight rows work = .ok (received, .created)) :
    rows.conflictsRun received.run = false ∧ received.Pairs (.live work) := by
  simp only [WorkReceiptRequest.receiveRun, bind_ok] at receives
  obtain ⟨_, valid, initial, expected, receives⟩ := receives
  split at receives
  · simp only [bind_ok, pure_ok, Prod.mk.injEq] at receives
    obtain ⟨_, _, _, _, _, _, _, impossible⟩ := receives
    cases impossible
  · rename_i unique
    rw [Bool.not_eq_true] at unique
    simp only [pure_ok, Prod.mk.injEq, and_true] at receives
    subst receives
    exact ⟨unique, rfl, rfl, {
      valid
      transitions := ⟨initial, [], expected, rfl,
        fun _ impossible => absurd impossible List.not_mem_nil⟩
      event := rfl
      version := Nat.le_refl 1 }⟩

theorem receive_cases (accepted : request.receive digests sight rows = .ok (next, receipt)) :
    next = rows ∨ rows.conflictsWork (request.workItem digests) = false ∧
      ∃ received : ReceivedRun, rows.conflictsRun received.run = false ∧
        received.Pairs (.live (request.workItem digests)) ∧
        next = ⟨rows.works ++ [.live (request.workItem digests)], rows.runs ++ [received]⟩ := by
  unfold WorkReceiptRequest.receive at accepted
  split at accepted
  · cases accepted
  · split at accepted
    · cases accepted
    · rename_i admitted admits
      split at accepted
      · cases accepted
      · rename_i received receives
        split at accepted
        · cases accepted
        · rename_i verified verifies
          cases accepted
          obtain replayed | ⟨rfl, unique⟩ := admitEnvelope_ok admits
          · rw [replayed]
            exact .inl rfl
          · obtain ⟨run, disposition⟩ := received
            simp only [WorkReceiptRequest.verifyReceipt, bind_ok, require_ok] at verifies
            obtain ⟨_, rfl, _⟩ := verifies
            obtain ⟨fresh, pairs⟩ := receiveRun_created receives
            exact .inr ⟨unique, run, fresh, pairs, rfl⟩

theorem Proper.insert (proper : rows.Proper)
    (unique : rows.conflictsWork (request.workItem digests) = false)
    {received : ReceivedRun} (fresh : rows.conflictsRun received.run = false)
    (pairs : received.Pairs (.live (request.workItem digests))) :
    Proper ⟨rows.works ++ [.live (request.workItem digests)], rows.runs ++ [received]⟩ := by
  simp only [conflictsWork, List.any_eq_false, Bool.or_eq_true, decide_eq_true_eq, not_or] at unique
  simp only [conflictsRun, List.any_eq_false, Bool.or_eq_true, decide_eq_true_eq, not_or] at fresh
  constructor
  · rw [List.map_append, List.map_singleton, List.nodup_append]
    refine ⟨proper.keys, List.nodup_singleton _, ?_⟩
    intro key member other single
    obtain ⟨row, listed, rfl⟩ := List.mem_map.mp member
    rw [List.mem_singleton.mp single]
    exact (unique row listed).2
  · rw [List.map_append, List.map_singleton, List.nodup_append]
    refine ⟨proper.ids, List.nodup_singleton _, ?_⟩
    intro id member other single
    obtain ⟨row, listed, rfl⟩ := List.mem_map.mp member
    rw [List.mem_singleton.mp single]
    exact (unique row listed).1
  · rw [List.map_append, List.map_singleton, List.nodup_append]
    refine ⟨proper.runIds, List.nodup_singleton _, ?_⟩
    intro id member other single
    obtain ⟨run, listed, rfl⟩ := List.mem_map.mp member
    rw [List.mem_singleton.mp single]
    exact (fresh run listed).1
  · exact List.rel_append proper.paired (.cons pairs .nil)

theorem precedes_insert (work : WorkItemRow) (received : ReceivedRun) :
    rows.Precedes sha256 ⟨rows.works ++ [work], rows.runs ++ [received]⟩ where
  works row member := ⟨row, List.mem_append_left _ member, .refl row⟩
  runs run member := ⟨run, List.mem_append_left _ member, rfl⟩

theorem snapshot_id (same : initialRunSnapshot other = initialRunSnapshot run) :
    other.id = run.id := by
  have ids := congrArg RunRecord.id same
  exact ids

theorem Proper.map (proper : rows.Proper) (changeWork : WorkItemRow → WorkItemRow)
    (changeRun : ReceivedRun → ReceivedRun)
    (works : ∀ row : WorkItemRow, row.Becomes digests.sha256 (changeWork row))
    (runs : ∀ received row, received.Pairs row → (changeRun received).Pairs row)
    (snapshots : ∀ received, initialRunSnapshot (changeRun received).run =
      initialRunSnapshot received.run) :
    Proper ⟨rows.works.map changeWork, rows.runs.map changeRun⟩ where
  keys := by
    have kept : rows.works.map ((·.sourceKey) ∘ changeWork) = rows.works.map (·.sourceKey) :=
      List.map_congr_left fun row _ => (works row).identity.2.1
    rw [List.map_map, kept]
    exact proper.keys
  ids := by
    have kept : rows.works.map ((·.id) ∘ changeWork) = rows.works.map (·.id) :=
      List.map_congr_left fun row _ => (works row).identity.1
    rw [List.map_map, kept]
    exact proper.ids
  runIds := by
    have kept : rows.runs.map ((·.run.id) ∘ changeRun) = rows.runs.map (·.run.id) :=
      List.map_congr_left fun received _ => snapshot_id (snapshots received)
    rw [List.map_map, kept]
    exact proper.runIds
  paired := by
    rw [List.forall₂_map_left_iff, List.forall₂_map_right_iff]
    refine proper.paired.imp fun row received pairs => ?_
    have identity := (works row).identity
    have kept := runs received row pairs
    exact ⟨kept.workItemId.trans identity.1.symm,
      kept.configurationRevision.trans identity.2.2.2.symm, kept.proper⟩

theorem precedes_map (rows : ReceiptRows) (changeWork : WorkItemRow → WorkItemRow)
    (changeRun : ReceivedRun → ReceivedRun)
    (works : ∀ row : WorkItemRow, row.Becomes sha256 (changeWork row))
    (snapshots : ∀ received, initialRunSnapshot (changeRun received).run =
      initialRunSnapshot received.run) :
    rows.Precedes sha256 ⟨rows.works.map changeWork, rows.runs.map changeRun⟩ where
  works row member := ⟨changeWork row, List.mem_map_of_mem member, works row⟩
  runs received member := ⟨changeRun received, List.mem_map_of_mem member, snapshots received⟩

end ReceiptRows

namespace ReceiptSystem

variable {φ : Type} {support : DigestSupport φ} {digests : ReceiptDigests}
  {system next : ReceiptSystem} {rows : ReceiptRows}

theorem Sound.key_known (sound : system.Sound support digests) {earlier : ReceiptRows}
    (member : earlier ∈ system.history) {old : WorkItemRow} (listed : old ∈ earlier.works) :
      ∃ row ∈ system.rows.works, row.sourceKey = old.sourceKey := by
  obtain ⟨row, present, becomes⟩ := (sound.precedes earlier member).works old listed
  exact ⟨row, present, becomes.identity.2.1⟩

theorem Sound.write (sound : system.Sound support digests) (proper : rows.Proper)
    (precedes : system.rows.Precedes digests.sha256 rows) (issued : ∀ row ∈ rows.works,
      (∃ before ∈ system.rows.works, before.Becomes digests.sha256 row) ∨
      ∃ request : WorkReceiptRequest, request.WellFormed support digests ∧
      row = .live (request.workItem digests) ∧
        ∀ before ∈ system.rows.works, before.sourceKey ≠ row.sourceKey) :
    (system.write rows).Sound support digests where
  newest := List.mem_cons_self
  proper earlier member := by
    rcases List.mem_cons.mp member with rfl | before
    · exact proper
    · exact sound.proper earlier before
  precedes earlier member := by
    rcases List.mem_cons.mp member with rfl | before
    · exact .refl _
    · exact (sound.precedes earlier before).trans precedes
  issued row member := by
    have single : ∀ other ∈ rows.works, other.sourceKey = row.sourceKey → other = row :=
      fun other listed same => List.inj_on_of_nodup_map proper.keys listed member same
    obtain ⟨before, known, becomes⟩ | ⟨request, wellFormed, rfl, fresh⟩ := issued row member
    · obtain ⟨request, wellFormed, inserted⟩ := sound.issued before known
      refine ⟨request, wellFormed, fun earlier seen old listed same => ?_⟩
      rcases List.mem_cons.mp seen with rfl | past
      · rw [single old listed same]
        exact (inserted system.rows sound.newest before known rfl).trans becomes
      · exact inserted earlier past old listed (same.trans becomes.identity.2.1)
    · refine ⟨request, wellFormed, fun earlier seen old listed same => ?_⟩
      rcases List.mem_cons.mp seen with rfl | past
      · rw [single old listed same]
        exact .refl _
      · obtain ⟨before, known, key⟩ := sound.key_known past listed
        exact absurd (key.trans same) (fresh before known)

theorem Sound.after (sound : system.Sound support digests)
    (seen : system.seen digests support operation) :
    (system.after digests operation).Sound support digests := by
  have stored := sound.proper system.rows sound.newest
  cases operation with
  | receive request sight =>
      simp only [ReceiptSystem.after]
      split
      · rename_i rows receipt accepted
        obtain rfl | ⟨unique, received, fresh, pairs, rfl⟩ := ReceiptRows.receive_cases accepted
        · exact sound.write stored (.refl _) fun row member => .inl ⟨row, member, .refl row⟩
        · refine sound.write (stored.insert unique fresh pairs)
            (ReceiptRows.precedes_insert _ _) fun row member => ?_
          rcases List.mem_append.mp member with before | new
          · exact .inl ⟨row, before, .refl row⟩
          · refine .inr ⟨request, seen.1, List.mem_singleton.mp new, fun before known same => ?_⟩
            rw [ReceiptRows.conflictsWork, List.any_eq_false] at unique
            refine unique before known ?_
            rw [Bool.or_eq_true, decide_eq_true_eq, decide_eq_true_eq]
            exact .inr (same.trans (congrArg WorkItemRow.sourceKey (List.mem_singleton.mp new)))
      · exact sound
  | advance runId input =>
      let change (received : ReceivedRun) :=
        if received.run.id = runId then received.advance input else received
      have snapshots : ∀ received, initialRunSnapshot (change received).run =
          initialRunSnapshot received.run := by
        intro received
        simp only [change]
        split
        · exact ReceivedRun.advance_snapshot received input
        · rfl
      have pairs : ∀ received row, received.Pairs row → (change received).Pairs row := by
        intro received row pairs
        simp only [change]
        split
        · exact pairs.advance
        · exact pairs
      have unchanged : ∀ row : WorkItemRow, row.Becomes digests.sha256 (id row) :=
        fun row => .refl row
      have mapped := stored.map id change unchanged pairs snapshots
      have precedes := ReceiptRows.precedes_map system.rows id change unchanged snapshots
      rw [List.map_id] at mapped precedes
      exact sound.write mapped precedes fun row member => .inl ⟨row, member, .refl row⟩
  | erase workItemId sealKey =>
      let change (row : WorkItemRow) :=
        if row.id = workItemId then row.erase digests.sha256 sealKey else row
      have works : ∀ row : WorkItemRow, row.Becomes digests.sha256 (change row) := by
        intro row
        simp only [change]
        split
        · exact WorkItemRow.becomes_erase sealKey
        · exact .refl row
      have mapped := stored.map change id works (fun _ _ pairs => pairs) (fun _ => rfl)
      have precedes := ReceiptRows.precedes_map system.rows change id works (fun _ => rfl)
      rw [List.map_id] at mapped precedes
      refine sound.write mapped precedes fun row member => ?_
      obtain ⟨before, known, rfl⟩ := List.mem_map.mp member
      exact .inl ⟨before, known, works before⟩

theorem sound_of_reachable (reached : (receiptMachine support digests).Reachable system) :
    system.Sound support digests := by
  refine Machine.Reachable.invariant (Sound support digests) reached ?_ ?_
  · rintro system rfl
    have empty : ReceiptRows.Proper ⟨[], []⟩ :=
      ⟨List.nodup_nil, List.nodup_nil, List.nodup_nil, .nil⟩
    exact {
      newest := List.mem_singleton_self _
      proper := fun earlier member => List.mem_singleton.mp member ▸ empty
      precedes := fun earlier member => List.mem_singleton.mp member ▸ .refl _
      issued := fun _ impossible => absurd impossible List.not_mem_nil }
  · rintro system operation next sound ⟨seen, rfl⟩
    exact sound.after seen

end ReceiptSystem

theorem initialReceivedTransition_ok {run : RunRecord} (valid : run.validate = .ok ())
    (initial : run.state = .received ∧ run.version = 1 ∧ run.updatedAt = run.createdAt) :
    ∃ transition, initialReceivedTransition run = .ok transition ∧ transition.sequence = 1 := by
  have named : requireId run.id "transition run ID" = .ok () := by
    simp only [RunRecord.validate, bind_ok] at valid
    obtain ⟨_, named, _⟩ := valid
    exact requireId_ok _ named
  simp only [initialReceivedTransition, bind_ok, pure_ok, require_ok]
  refine ⟨_, ⟨(), initial, (), ?_, rfl⟩, rfl⟩
  simp only [RunTransitionRecord.validate, bind_ok, require_ok]
  exact ⟨(), named, (), by decide +kernel, (), ⟨trivial, trivial⟩, (), Nat.le_refl 1, (), rfl,
    .inr ⟨trivial, trivial⟩⟩

namespace ReceiptRows

variable {φ : Type} {support : DigestSupport φ} {digests : ReceiptDigests} {rows : ReceiptRows}
  {row : WorkItemRow} {received : ReceivedRun}

theorem Proper.runByWorkItem (proper : rows.Proper) (member : received ∈ rows.runs) :
    rows.runByWorkItem received.run.workItemId = some received := by
  have identifiers : rows.works.map (·.id) = rows.runs.map (·.run.workItemId) :=
    map_eq_of_related proper.paired fun pairs => pairs.workItemId.symm
  have distinct : (rows.runs.map (·.run.workItemId)).Nodup := identifiers ▸ proper.ids
  exact find?_key distinct member

theorem Proper.run? (proper : rows.Proper) (member : received ∈ rows.runs) :
    rows.run? received.run.id = some received :=
  find?_key proper.runIds member

theorem Proper.pair (proper : rows.Proper) (member : row ∈ rows.works) :
    ∃ received ∈ rows.runs, received.Pairs row :=
  exists_related_right proper.paired member

theorem Proper.earlier {found : ReceiptRows} (proper : rows.Proper) (before : found.Proper)
    (precedes : found.Precedes digests.sha256 rows) (member : row ∈ rows.works)
    (listed : received ∈ rows.runs)
    (pairs : received.Pairs row) (present : row.sourceKey ∈ found.works.map (·.sourceKey)) :
    ∃ old ∈ found.works, found.workBySourceKey row.sourceKey = some old ∧
    old.Becomes digests.sha256 row ∧
      ∃ run ∈ found.runs, run.Pairs old ∧ initialRunSnapshot run.run =
        initialRunSnapshot received.run := by
  obtain ⟨old, oldMember, key⟩ := List.mem_map.mp present
  obtain ⟨next, nextMember, becomes⟩ := precedes.works old oldMember
  obtain rfl : next = row :=
    List.inj_on_of_nodup_map proper.keys nextMember member (becomes.identity.2.1.trans key)
  obtain ⟨run, runMember, runPairs⟩ := before.pair oldMember
  obtain ⟨last, lastMember, snapshot⟩ := precedes.runs run runMember
  -- The run of the earlier row is, with later transitions, the run of the row.
  have same : last.run.workItemId = received.run.workItemId := by
    have kept := congrArg RunRecord.workItemId snapshot
    have kept : last.run.workItemId = run.run.workItemId := kept
    rw [kept, runPairs.workItemId, pairs.workItemId, becomes.identity.1]
  obtain rfl : last = received := by
    have first := proper.runByWorkItem lastMember
    rw [same, proper.runByWorkItem listed] at first
    exact (Option.some.inj first).symm
  exact ⟨old, oldMember, key ▸ find?_key before.keys oldMember, becomes, run, runMember, runPairs,
    snapshot.symm⟩

end ReceiptRows

namespace ReceiptSystem

variable {φ : Type} {support : DigestSupport φ} {digests : ReceiptDigests} {system : ReceiptSystem}
  {request : WorkReceiptRequest} {sight : ReceiptSight}
  {row found : WorkItemRow} {received : ReceivedRun}

/-- What a replayed work item makes of its admission. -/
def replayed (rows : ReceiptRows) (run : RunRecord) : Except ReceiptError WorkItem →
    Except ReceiptError (ReceiptRows × WorkRunReceipt)
  | .ok work =>
    .ok (rows, { workItem := work, run, disposition := .replayed, initialTransition := none })
  | .error error => .error error

theorem replay_live {existing : StoredWorkItem}
    (accepted : existing.replay digests key candidate = .ok work) : existing = .live work := by
  unfold StoredWorkItem.replay at accepted
  split at accepted
  · cases accepted
  · split at accepted
    · cases accepted
    · split at accepted
      · split at accepted
        · cases accepted
        · split at accepted
          · cases accepted
          · split at accepted
            · rw [Except.ok.inj accepted]
            · cases accepted
      · cases accepted

theorem Sound.sees_row (sound : system.Sound support digests) (sees : system.Sees request sight)
    (member : row ∈ system.rows.works) (key : row.sourceKey = request.sourceKey)
    (listed : received ∈ system.rows.runs) (pairs : received.Pairs row) {rows : ReceiptRows}
    (seen : rows ∈ [sight.work, sight.run, sight.transitions, sight.event, sight.history]) :
    rows.Proper ∧ ∃ old ∈ rows.works, rows.workBySourceKey row.sourceKey = some old ∧
      old.Becomes digests.sha256 row ∧ ∃ run ∈ rows.runs, run.Pairs old ∧
        initialRunSnapshot run.run = initialRunSnapshot received.run := by
  obtain ⟨known, present⟩ := sees rows seen
  have proper := sound.proper system.rows sound.newest
  refine ⟨sound.proper rows known, proper.earlier (sound.proper rows known)
    (sound.precedes rows known) member listed pairs ?_⟩
  rw [key]
  exact present (key ▸ List.mem_map_of_mem member)

theorem runCandidate_valid (wellFormed : request.WellFormed support digests)
    (proper : received.Proper) {work : WorkItem} (named : received.run.workItemId = work.id)
    (revision : received.run.configurationRevision = work.envelope.configurationRevision) :
    (request.runCandidate work).validate = .ok () := by
  have valid := proper.valid
  simp only [RunRecord.validate, bind_ok, require_ok] at valid ⊢
  obtain ⟨_, _, _, workItem, _, _, _, _, _, ⟨positive, _⟩, _⟩ := valid
  have state : (request.runCandidate work).state = .received := rfl
  refine ⟨(), wellFormed.runId, (), ?_, (), wellFormed.catalogHash, (), Nat.le_refl _, (),
    ⟨?_, Nat.le_refl 1⟩, (), fun _ => rfl, (), by simp [state], (), by simp [state], (), rfl, rfl⟩
  · rw [← show received.run.workItemId = (request.runCandidate work).workItemId from named]
    exact workItem
  · rw [← show received.run.configurationRevision =
      (request.runCandidate work).configurationRevision from revision]
    exact positive

/-- The run of the row with its receipt is read and verified. -/
theorem Sound.run_found (sound : system.Sound support digests) (sees : system.Sees request sight)
    (wellFormed : request.WellFormed support digests) (member : row ∈ system.rows.works)
    (key : row.sourceKey = request.sourceKey)
    (listed : received ∈ system.rows.runs) (pairs : received.Pairs row) {work : WorkItem}
    (named : work.id = row.id)
    (revision : work.envelope.configurationRevision = row.configurationRevision) :
    ∃ found : ReceivedRun, initialRunSnapshot found.run = initialRunSnapshot received.run ∧
      request.receiveRun sight system.rows work = .ok (found, .replayed) ∧
      request.verifyReceipt (work, .replayed) (found, .replayed) =
        .ok
          { workItem := work, run := found.run, disposition := .replayed,
            initialTransition := none } := by
  have read (rows : ReceiptRows)
      (seen : rows ∈ [sight.work, sight.run, sight.transitions, sight.event, sight.history]) :
      ∃ run ∈ rows.runs, rows.runByWorkItem work.id = some run ∧
        rows.run? received.run.id = some run ∧
        run.run.workItemId = work.id ∧ run.run.configurationRevision =
          row.configurationRevision ∧ run.Proper ∧
        initialRunSnapshot run.run = initialRunSnapshot received.run := by
    obtain ⟨proper, old, _, _, becomes, run, present, runPairs, snapshot⟩ :=
      sound.sees_row sees member key listed pairs seen
    have owner : run.run.workItemId = work.id := by
      rw [runPairs.workItemId, named, becomes.identity.1]
    refine ⟨run, present, owner ▸ proper.runByWorkItem present,
      ReceiptRows.snapshot_id snapshot ▸ proper.run? present, owner, ?_, runPairs.proper, snapshot⟩
    rw [runPairs.configurationRevision, becomes.identity.2.2.2]
  obtain ⟨run, _, byWork, _, owner, runRevision, runProper, snapshot⟩ := read sight.run (by simp)
  obtain ⟨first, _, _, firstById, _, _, firstProper, firstSnapshot⟩ :=
    read sight.transitions (by simp)
  obtain ⟨second, _, _, secondById, _, _, secondProper, secondSnapshot⟩ :=
    read sight.event (by simp)
  obtain ⟨third, _, _, thirdById, _, _, thirdProper, thirdSnapshot⟩ := read sight.history (by simp)
  have runId : run.run.id = received.run.id := ReceiptRows.snapshot_id snapshot
  obtain ⟨initial, later, expected, whole, _⟩ := thirdProper.transitions
  refine ⟨{ run with transitions := third.transitions }, snapshot, ?_, ?_⟩
  · have valid := runCandidate_valid wellFormed runProper owner (runRevision.trans revision.symm)
    obtain ⟨candidateInitial, receives, _⟩ := initialReceivedTransition_ok valid ⟨rfl, rfl, rfl⟩
    have conflicts : system.rows.conflictsRun (request.runCandidate work) = true := by
      rw [ReceiptRows.conflictsRun, List.any_eq_true]
      refine ⟨received, listed, ?_⟩
      rw [Bool.or_eq_true, decide_eq_true_eq, decide_eq_true_eq]
      exact .inr (pairs.workItemId.trans named.symm)
    have headed : (sight.transitions.transitionsOf run.run.id).head?.any
        (·.sequence = 1) = true := by
      obtain ⟨firstInitial, _, firstExpected, firstWhole, _⟩ := firstProper.transitions
      obtain ⟨_, again, one⟩ := initialReceivedTransition_ok firstProper.valid ⟨rfl, rfl, rfl⟩
      rw [firstExpected] at again
      cases again
      rw [ReceiptRows.transitionsOf, runId, firstById, Option.map_some,
        Option.getD_some, firstWhole]
      exact decide_eq_true one
    have event : sight.event.receivedEventOf run.run.id =
        some (runReceivedEvent (initialRunSnapshot run.run)) := by
      rw [ReceiptRows.receivedEventOf, runId, secondById, Option.bind_some, secondProper.event,
        secondSnapshot, snapshot]
    have history : sight.history.transitionsOf run.run.id = third.transitions := by
      rw [ReceiptRows.transitionsOf, runId, thirdById, Option.map_some, Option.getD_some]
    simp only [WorkReceiptRequest.receiveRun, bind_ok]
    refine ⟨(), valid, candidateInitial, receives, ?_⟩
    rw [if_pos conflicts]
    have found : sight.run.runByWorkItem (request.runCandidate work).workItemId = some run := byWork
    simp only [found, requireSome_ok, requireInitialRunEvent, bind_ok, require_ok, pure_ok]
    exact ⟨run, rfl, (), headed, (), ⟨_, event, rfl⟩, by rw [history]⟩
  · simp only [WorkReceiptRequest.verifyReceipt, bind_ok, require_ok, pure_ok]
    have same : initialRunSnapshot run.run = initialRunSnapshot third.run :=
      snapshot.trans thirdSnapshot.symm
    refine ⟨(), trivial, (), ⟨owner, runRevision.trans revision.symm, by simp⟩, (), runProper.valid,
      initial, ?_, (), ?_, (), by simp, rfl⟩
    · rw [same]
      exact expected
    · rw [whole]
      rfl

/-- An admission under a source key that has a row finds it, possibly before its
erasure, and then the run of that row. -/
theorem Sound.receive_found (sound : system.Sound support digests)
    (sees : system.Sees request sight) (wellFormed : request.WellFormed support digests)
    (current : request.requireCurrentSnapshot = .ok ())
    (member : row ∈ system.rows.works) (key : row.sourceKey = request.sourceKey) :
    ∃ found received run, sight.work.workBySourceKey request.sourceKey = some found ∧
      found.Becomes digests.sha256 row ∧ received ∈ system.rows.runs ∧ received.Pairs row ∧
      initialRunSnapshot run = initialRunSnapshot received.run ∧
        request.receive digests sight system.rows =
        match found.hydrate request.digestKey with
        | .error reason => .error (.rejected reason)
        | .ok existing => replayed system.rows run
            (existing.replay digests request.digestKey (request.workItem digests)) := by
  have proper := sound.proper system.rows sound.newest
  obtain ⟨received, listed, pairs⟩ := proper.pair member
  obtain ⟨_, found, _, lookup, becomes, _⟩ :=
    sound.sees_row sees member key listed pairs (List.mem_cons_self : sight.work ∈ _)
  rw [key] at lookup
  have conflicts : system.rows.conflictsWork (request.workItem digests) = true := by
    rw [ReceiptRows.conflictsWork, List.any_eq_true]
    refine ⟨row, member, ?_⟩
    rw [Bool.or_eq_true, decide_eq_true_eq, decide_eq_true_eq]
    exact .inr key
  cases hydrated : found.hydrate request.digestKey with
  | error reason =>
      refine ⟨found, received, received.run, lookup, becomes, listed, pairs, rfl, ?_⟩
      simp only [WorkReceiptRequest.receive, WorkReceiptRequest.admitEnvelope, current, conflicts,
        if_true, lookup, hydrated]
  | ok existing =>
      cases replays : existing.replay digests request.digestKey (request.workItem digests) with
      | error error =>
          refine ⟨found, received, received.run, lookup, becomes, listed, pairs, rfl, ?_⟩
          simp only [WorkReceiptRequest.receive, WorkReceiptRequest.admitEnvelope, current,
            conflicts, if_true, lookup, hydrated, replays, Except.map, replayed]
      | ok work =>
          -- Only live work is answered, and its row carries the same identity.
          obtain rfl := replay_live replays
          have alive : found = .live work := by
            cases found with
            | live other =>
                cases hydrated
                rfl
            | erased other sealKey =>
                simp only [WorkItemRow.hydrate, bind_ok, pure_ok] at hydrated
                obtain ⟨_, _, impossible⟩ := hydrated
                cases impossible
          subst alive
          have identity := becomes.identity
          obtain ⟨run, snapshot, receives, verifies⟩ :=
            sound.run_found sees wellFormed member key listed pairs identity.1.symm
              identity.2.2.2.symm
          refine ⟨.live work, received, run.run, lookup, becomes, listed, pairs, snapshot, ?_⟩
          simp only [WorkReceiptRequest.receive, WorkReceiptRequest.admitEnvelope, current,
            conflicts, if_true, lookup, hydrated, replays, Except.map, receives, verifies, replayed,
              WorkReceiptRequest.commit]

end ReceiptSystem

namespace StoredWorkItem

variable {digests : ReceiptDigests} {key : String} {existing : StoredWorkItem}
  {candidate : WorkItem}

theorem replay_cases (digests : ReceiptDigests) (key : String) (existing : StoredWorkItem)
    (candidate : WorkItem) :
    (∃ work, existing = .live work ∧ existing.replay digests key candidate = .ok work) ∨
      (∃ reason, existing.replay digests key candidate = .error (.conflict reason existing.id)) ∨
      ∃ work, existing = .retained work ∧
        existing.replay digests key candidate = .error (.detailExpired "work" existing.id) := by
  unfold replay
  split
  · exact .inr (.inl ⟨_, rfl⟩)
  · split
    · exact .inr (.inl ⟨_, rfl⟩)
    · split
      · split
        · exact .inr (.inl ⟨_, rfl⟩)
        · split
          · exact .inr (.inl ⟨_, rfl⟩)
          · cases existing with
            | live work => exact .inl ⟨work, rfl, rfl⟩
            | retained work => exact .inr (.inr ⟨work, rfl, rfl⟩)
      · exact .inr (.inl ⟨_, rfl⟩)

theorem replay_different (key : String) (different : existing.digests ≠ candidate.digests) :
    ∃ reason, existing.replay digests key candidate = .error (.conflict reason existing.id) := by
  unfold replay
  split
  · exact ⟨_, rfl⟩
  · rename_i version
    split
    · exact ⟨_, rfl⟩
    · have distinct : ¬(existing.digests.inputDigest = candidate.digests.inputDigest ∧
          existing.digests.admissionDigest = candidate.digests.admissionDigest) := by
        rintro ⟨input, admission⟩
        apply different
        cases first : existing.digests
        cases second : candidate.digests
        simp_all
      rw [if_neg distinct]
      exact ⟨_, rfl⟩

end StoredWorkItem

/-- An admission that resolves to what an earlier one resolved to. -/
structure WorkReceiptRequest.Repeats {φ : Type} (support : DigestSupport φ)
    (first second : WorkReceiptRequest) : Prop where
  envelope : first.incoming.envelope.Agrees support second.incoming.envelope
  digestKey : first.digestKey = second.digestKey
  inputSchemaId : first.incoming.snapshot.inputSchemaId = second.incoming.snapshot.inputSchemaId
  inputSchemaHash : first.incoming.snapshot.inputSchemaHash =
    second.incoming.snapshot.inputSchemaHash
  inputClassification : first.incoming.inputClassification = second.incoming.inputClassification
  redactedInputProjection : first.incoming.redactedInputProjection =
    second.incoming.redactedInputProjection

/-- Distinct keys have distinct versions and distinct texts have distinct digests. -/
structure DigestSupport.CollisionFree {φ : Type} (support : DigestSupport φ) : Prop where
  fingerprint : ∀ key other, support.fingerprint key = support.fingerprint other → key = other
  hmac : ∀ key message other, support.hmac key message = support.hmac key other → message = other

namespace WorkReceiptRequest

variable {φ : Type} {support : DigestSupport φ} {digests : ReceiptDigests}
  {first request : WorkReceiptRequest} {row : WorkItemRow}

theorem Repeats.same_digests (keeps : support.text.KeepsAscii)
    (repeats : first.Repeats support request)
    (firstFormed : first.WellFormed support digests) (formed : request.WellFormed support digests) :
    (first.workItem digests).digests = (request.workItem digests).digests := by
  have derived := firstFormed.digests
  rw [repeats.digestKey] at derived
  have same := DigestSupport.derive_agrees keeps firstFormed.payload formed.payload
    repeats.envelope derived formed.digests
  rw [← repeats.digestKey] at same
  exact same.trans (congrArg (digests.admission request.incoming.envelope) repeats.digestKey)

theorem Repeats.replay (keeps : support.text.KeepsAscii) (repeats : first.Repeats support request)
    (firstFormed : first.WellFormed support digests) (formed : request.WellFormed support digests) :
    ((StoredWorkItem.live (first.workItem digests)).replay digests request.digestKey
      (request.workItem digests) =
        .ok (first.workItem digests)) ∧
      (StoredWorkItem.retained ((first.workItem digests).erase digests.sha256)).replay digests
        request.digestKey
        (request.workItem digests) = .error (.detailExpired "work" first.workItemId) := by
  have same := repeats.same_digests keeps firstFormed formed
  have intact : (StoredWorkItem.live (first.workItem digests)).intact digests request.digestKey =
      true := by
    rw [← repeats.digestKey]
    exact decide_eq_true (digests.projection_bare _ _ _).symm
  have schema : ((first.workItem digests).inputSchemaId, (first.workItem digests).inputSchemaHash) =
      ((request.workItem digests).inputSchemaId, (request.workItem digests).inputSchemaHash) :=
    Prod.ext repeats.inputSchemaId repeats.inputSchemaHash
  have classification : (first.workItem digests).inputClassification =
    (request.workItem digests).inputClassification :=
    repeats.inputClassification
  have projection : (first.workItem digests).redactedInputProjection =
      (request.workItem digests).redactedInputProjection := repeats.redactedInputProjection
  constructor
  · unfold StoredWorkItem.replay
    simp only [StoredWorkItem.digests, StoredWorkItem.inputSchema,
      StoredWorkItem.inputClassification,
      StoredWorkItem.sameProjection, same, intact, schema, classification, projection, ne_eq,
        not_true_eq_false,
      if_false, Bool.not_true, Bool.false_eq_true, and_self, if_true, decide_true,
        Bool.true_eq_false, or_self]
  · unfold StoredWorkItem.replay
    simp only [StoredWorkItem.digests, StoredWorkItem.inputSchema,
      StoredWorkItem.inputClassification,
      StoredWorkItem.sameProjection, StoredWorkItem.intact, WorkItem.erase, same, schema,
        classification, projection,
      ne_eq, not_true_eq_false, if_false, Bool.not_true, Bool.false_eq_true, and_self,
        if_true, decide_true,
      Bool.true_eq_false, or_self]
    rfl

theorem digests_different (keeps : support.text.KeepsAscii) (free : support.CollisionFree)
    (firstFormed : first.WellFormed support digests) (formed : request.WellFormed support digests)
    (different : ¬(first.digestKey = request.digestKey ∧
      first.incoming.envelope.Agrees support request.incoming.envelope)) :
    (first.workItem digests).digests ≠ (request.workItem digests).digests := by
  intro same
  have firstDerived := firstFormed.digests
  have derived := formed.digests
  have same : digests.admission first.incoming.envelope first.digestKey =
      digests.admission request.incoming.envelope request.digestKey := same
  rw [same] at firstDerived
  simp only [DigestSupport.deriveAdmissionDigests, bind_ok, pure_ok] at firstDerived derived
  obtain ⟨_, _, _, _, firstMessage, firstWritten, _, _, firstDigests⟩ := firstDerived
  obtain ⟨_, _, _, _, message, written, _, _, requestDigests⟩ := derived
  rw [← requestDigests] at firstDigests
  simp only [AdmissionDigests.mk.injEq] at firstDigests
  obtain ⟨_, admission, version⟩ := firstDigests
  have keys : first.digestKey = request.digestKey := by
    refine free.fingerprint _ _ ?_
    have version : digestKeyVersionPrefix ++ support.fingerprint first.digestKey =
        digestKeyVersionPrefix ++ support.fingerprint request.digestKey := version
    have lists := congrArg String.toList version
    rw [String.toList_append, String.toList_append] at lists
    exact String.toList_injective (List.append_cancel_left lists)
  rw [keys] at admission firstWritten
  have messages := free.hmac _ _ _ admission
  have messages : firstMessage = message := by
    have contents := congrArg (fun bytes : ByteArray => bytes.data.toList) messages
    exact ByteArray.ext (by simpa using contents)
  exact different ⟨keys, (AdmissionEnvelope.message_eq_iff keeps firstFormed.payload
    formed.payload firstWritten written).mp messages⟩

end WorkReceiptRequest

/-- One work item for each source key, one run for each work item and one initial
transition for each run. -/
structure ReceiptRows.OneForEach (rows : ReceiptRows) : Prop where
  keys : (rows.works.map (·.sourceKey)).Nodup
  ids : (rows.works.map (·.id)).Nodup
  runs : rows.runs.map (·.run.workItemId) = rows.works.map (·.id)
  initial : ∀ received ∈ rows.runs, (received.transitions.filter (·.sequence = 1)).length = 1

/-- A row and its run answer an admission, which leaves the rows as they are. -/
def ReceiptSystem.Answers (system : ReceiptSystem) (row : WorkItemRow)
    (outcome : Except ReceiptError (ReceiptRows × WorkRunReceipt)) : Prop :=
  ∃ receipt, ∃ received ∈ system.rows.runs, outcome = .ok (system.rows, receipt) ∧
    received.run.workItemId = row.id ∧
    receipt.workItem.id = row.id ∧ receipt.run.id = received.run.id ∧
      receipt.disposition = .replayed ∧
    receipt.initialTransition = none

namespace ReceiptSystem

variable {φ : Type} {support : DigestSupport φ} {digests : ReceiptDigests} {system : ReceiptSystem}
  {request first : WorkReceiptRequest} {sight : ReceiptSight} {row found : WorkItemRow}

theorem Sound.oneForEach (sound : system.Sound support digests) : system.rows.OneForEach := by
  have proper := sound.proper system.rows sound.newest
  refine ⟨proper.keys, proper.ids, ?_, fun received member => ?_⟩
  · exact (map_eq_of_related proper.paired fun pairs => pairs.workItemId.symm).symm
  · obtain ⟨row, _, pairs⟩ := exists_related proper.paired member
    obtain ⟨initial, later, expected, whole, behind⟩ := pairs.proper.transitions
    obtain ⟨_, again, one⟩ := initialReceivedTransition_ok pairs.proper.valid ⟨rfl, rfl, rfl⟩
    rw [expected] at again
    cases again
    have none : later.filter (·.sequence = 1) = [] := by
      rw [List.filter_eq_nil_iff]
      intro transition listed
      have above := behind transition listed
      rw [decide_eq_true_eq]
      omega
    simp only [whole, List.filter_cons, one, decide_true, if_true, none, List.length_singleton]

theorem Sound.writes_nothing (member : row ∈ system.rows.works)
    (key : row.sourceKey = request.sourceKey) :
    (system.after digests (.receive request sight)).rows = system.rows := by
  simp only [ReceiptSystem.after]
  split
  · rename_i rows receipt accepted
    obtain rfl | ⟨unique, _⟩ := ReceiptRows.receive_cases accepted
    · rfl
    · rw [ReceiptRows.conflictsWork, List.any_eq_false] at unique
      refine absurd ?_ (unique row member)
      rw [Bool.or_eq_true, decide_eq_true_eq, decide_eq_true_eq]
      exact .inr key
  · rfl

theorem hydrate_readable (becomes : found.Becomes digests.sha256 row)
    (readable : (row.hydrate key).isOk = true) : found.hydrate key = .ok found.content := by
  have own : row.hydrate key = .ok row.content := by
    cases row with
    | live work => rfl
    | erased work sealKey =>
        by_cases same : sealKey = key
        · simp [WorkItemRow.hydrate, WorkItemRow.content, require, same]
        · rw [WorkItemRow.hydrate, require, if_neg same] at readable
          cases readable
  rcases becomes with rfl | ⟨work, sealKey, rfl, rfl⟩
  · exact own
  · rfl

theorem Sound.outcome (sound : system.Sound support digests)
    (seen : system.seen digests support (.receive request sight))
    (current : request.requireCurrentSnapshot = .ok ()) (member : row ∈ system.rows.works)
    (key : row.sourceKey = request.sourceKey)
    (readable : (row.hydrate request.digestKey).isOk = true) :
    ∃ found, found.Becomes digests.sha256 row ∧
    (∃ earlier ∈ system.history, found ∈ earlier.works) ∧
      ((∃ work, found.content.replay digests request.digestKey
        (request.workItem digests) = .ok work) →
        system.Answers row (request.receive digests sight system.rows)) ∧
      ∀ error, found.content.replay digests request.digestKey (request.workItem digests) =
        .error error →
        request.receive digests sight system.rows = .error error := by
  obtain ⟨wellFormed, sees⟩ := seen
  obtain ⟨found, received, run, lookup, becomes, listed, pairs, snapshot, receives⟩ :=
    sound.receive_found sees wellFormed current member key
  rw [hydrate_readable becomes readable] at receives
  dsimp only at receives
  refine ⟨found, becomes, ⟨sight.work, (sees sight.work List.mem_cons_self).1,
    List.mem_of_find?_eq_some lookup⟩, ?_, ?_⟩
  · rintro ⟨work, replays⟩
    rw [replays] at receives
    have named : work.id = row.id := by
      have content := replay_live replays
      have id : found.id = work.id := congrArg StoredWorkItem.id content
      rw [← id, ← becomes.identity.1]
    exact ⟨_, received, listed, receives, pairs.workItemId, named,
      ReceiptRows.snapshot_id snapshot, rfl, rfl⟩
  · intro error replays
    rw [receives, replays]
    rfl

end ReceiptSystem

/-- In every order of admissions, transitions of runs and erasures, each source key has at most
one work item with one run and one initial transition, all of which stay.  A later admission
under the key writes nothing.  One that resolves to the same work is answered with its
identifiers, or refused as expired once the stored input was erased; one that resolves to
other digests is in conflict. -/
theorem workAdmission_idempotent {φ : Type} (support : DigestSupport φ) (digests : ReceiptDigests)
    (keeps : support.text.KeepsAscii) {system : ReceiptSystem}
    (reached : (receiptMachine support digests).Reachable system) :
    system.rows.OneForEach ∧
    (∀ earlier ∈ system.history, earlier.Precedes digests.sha256 system.rows) ∧
    ∀ row ∈ system.rows.works, ∃ first : WorkReceiptRequest, first.WellFormed support digests ∧
      (WorkItemRow.live (first.workItem digests)).Becomes digests.sha256 row ∧
      ∀ request sight, system.seen digests support (.receive request sight) →
      row.sourceKey = request.sourceKey →
        (system.after digests (.receive request sight)).rows = system.rows ∧
        (request.requireCurrentSnapshot = .ok () → (row.hydrate request.digestKey).isOk = true →
          (first.Repeats support request →
            system.Answers row (request.receive digests sight system.rows) ∨
              (∃ work sealKey, row = .erased work sealKey) ∧
                request.receive digests sight system.rows = .error (.detailExpired "work" row.id)) ∧
          (row.content.digests ≠ (request.workItem digests).digests →
            ∃ reason, request.receive digests sight system.rows =
              .error (.conflict reason row.id)) ∧
          (support.CollisionFree → ¬(first.digestKey = request.digestKey ∧
              first.incoming.envelope.Agrees support request.incoming.envelope) →
            ∃ reason, request.receive digests sight system.rows =
              .error (.conflict reason row.id)) ∧
          (system.Answers row (request.receive digests sight system.rows) ∨
            (∃ reason, request.receive digests sight system.rows =
              .error (.conflict reason row.id)) ∨
            (∃ work sealKey, row = .erased work sealKey) ∧
              request.receive digests sight system.rows =
                .error (.detailExpired "work" row.id))) := by
  have sound := ReceiptSystem.sound_of_reachable reached
  refine ⟨sound.oneForEach, sound.precedes, fun row member => ?_⟩
  obtain ⟨first, firstFormed, inserted⟩ := sound.issued row member
  have becomesRow := inserted system.rows sound.newest row member rfl
  refine ⟨first, firstFormed, becomesRow, fun request sight seen key => ?_⟩
  refine ⟨ReceiptSystem.Sound.writes_nothing member key, fun current readable => ?_⟩
  obtain ⟨found, becomes, ⟨earlier, past, listed⟩, answered, refused⟩ :=
    sound.outcome seen current member key readable
  have becomesFound := inserted earlier past found listed becomes.identity.2.1.symm
  have named : found.content.id = row.id := becomes.identity.1.symm
  have differs (different : row.content.digests ≠ (request.workItem digests).digests) :
      ∃ reason, request.receive digests sight system.rows = .error (.conflict reason row.id) := by
    rw [becomes.identity.2.2.1] at different
    obtain ⟨reason, replays⟩ := StoredWorkItem.replay_different request.digestKey different
    exact ⟨reason, named ▸ refused _ replays⟩
  refine ⟨fun repeats => ?_, differs, fun free different => differs ?_, ?_⟩
  · obtain ⟨live, retained⟩ := repeats.replay keeps firstFormed seen.1
    rcases becomesFound with rfl | ⟨work, sealKey, same, rfl⟩
    · exact .inl (answered ⟨_, live⟩)
    · cases same
      rcases becomes with rfl | ⟨_, _, impossible, _⟩
      · exact .inr ⟨⟨_, _, rfl⟩, refused _ retained⟩
      · cases impossible
  · rw [becomesRow.identity.2.2.1]
    exact WorkReceiptRequest.digests_different keeps free firstFormed seen.1 different
  · obtain ⟨work, _, replays⟩ | ⟨reason, replays⟩ | ⟨work, retained, replays⟩ :=
      StoredWorkItem.replay_cases digests request.digestKey found.content (request.workItem digests)
    · exact .inl (answered ⟨work, replays⟩)
    · exact .inr (.inl ⟨reason, named ▸ refused _ replays⟩)
    · refine .inr (.inr ⟨?_, named ▸ refused _ replays⟩)
      rcases becomes with rfl | ⟨_, sealKey, rfl, rfl⟩
      · cases row with
        | live work => cases retained
        | erased work sealKey => exact ⟨work, sealKey, rfl⟩
      · exact ⟨_, _, rfl⟩

namespace ErasedExample

def support : DigestSupport Bool where
  text := acuteSupport
  numbers := halfSupport
  hmac _ _ := String.ofList (List.replicate 64 'a')
  fingerprint _ := String.ofList (List.replicate 64 'b')

def digests : ReceiptDigests where
  body _ _ := ⟨"", ""⟩
  admission _ key := ⟨support.hmac key ByteArray.empty, support.hmac key ByteArray.empty,
    support.admissionDigestKeyVersion key⟩
  projection work key := work.id ++ key
  sha256 := id
  projection_bare _ _ _ := rfl

def envelope : AdmissionEnvelope where
  source := "manual"
  eventId := "event.first"
  instanceId := "instance.writer"
  triggerId := "trigger.manual"
  workflowId := "workflow.draft"
  mode := .dryRun
  brief := none
  configurationRevision := 1
  admittedPayload := "\x7b\x7d"

def incoming : ValidatedIncomingWork where
  envelope
  snapshot := {
    catalogHash := "catalog-sha256-v1:" ++ String.ofList (List.replicate 64 'c')
    instanceId := "instance.writer"
    templateId := "template.writer"
    instanceConfigurationRevision := 1
    triggerId := "trigger.manual"
    workflowId := "workflow.draft"
    inputSchemaId := "schema.brief"
    inputSchemaHash := "schema-sha256-v1:d" }
  redactedInputProjection := "\x7b\x7d"
  inputClassification := .internal

def request (suffix : String) (now : Time) : WorkReceiptRequest where
  incoming
  digestKey := "key.first"
  currentCatalogHash := incoming.snapshot.catalogHash
  workItemId := "work." ++ suffix
  runId := "run." ++ suffix
  admittedAt := now
  receivedAt := now

def everywhere (rows : ReceiptRows) : ReceiptSight := ⟨rows, rows, rows, rows, rows⟩

def empty : ReceiptSystem := { rows := ⟨[], []⟩, history := [⟨[], []⟩] }

def admitted : ReceiptSystem :=
  empty.after digests (.receive (request "first" 100) (everywhere empty.rows))

def erased : ReceiptSystem := admitted.after digests (.erase "work.first" "key.first")

theorem request_wellFormed (suffix : String) (now : Time)
    (named : requireId ("run." ++ suffix) "run ID" = .ok ()) :
    (request suffix now).WellFormed support digests where
  runId := named
  catalogHash := show requireDigest (removePrefix _ incoming.snapshot.catalogHash) "catalog hash" =
      .ok () by
    decide +kernel
  payload := show envelope.Frozen support from ⟨.mapping [], by decide +kernel⟩
  digests := show support.deriveAdmissionDigests envelope "key.first" =
      .ok (digests.admission envelope "key.first") by
    decide +kernel

theorem sees_everywhere {system : ReceiptSystem} (request : WorkReceiptRequest)
    (newest : system.rows ∈ system.history) :
    system.Sees request (everywhere system.rows) := by
  intro found member
  have same : found = system.rows := by simpa [everywhere] using member
  subst same
  exact ⟨newest, id⟩

theorem admitted_reachable : (receiptMachine support digests).Reachable admitted := by
  refine Machine.Reachable.next (.receive (request "first" 100) (everywhere empty.rows))
    (.start rfl) ⟨?_, rfl⟩
  exact ⟨request_wellFormed "first" 100 (by decide +kernel), sees_everywhere _ List.mem_cons_self⟩

theorem erased_reachable : (receiptMachine support digests).Reachable erased :=
  Machine.Reachable.next (.erase "work.first" "key.first") admitted_reachable ⟨trivial, rfl⟩

theorem repeated_seen (system : ReceiptSystem) (newest : system.rows ∈ system.history) :
    system.seen digests support (.receive (request "second" 200) (everywhere system.rows)) :=
  ⟨request_wellFormed "second" 200 (by decide +kernel), sees_everywhere _ newest⟩

end ErasedExample

open ErasedExample in
/-- The same admission is answered before the erasure and refused after it. -/
theorem workAdmission_expired :
    (receiptMachine support digests).Reachable erased ∧
    erased.seen digests support (.receive (request "second" 200) (everywhere erased.rows)) ∧
    (∃ receipt, (request "second" 200).receive digests (everywhere admitted.rows) admitted.rows =
      .ok (admitted.rows, receipt) ∧ receipt.workItem.id = "work.first") ∧
    (request "second" 200).receive digests (everywhere erased.rows) erased.rows =
      .error (.detailExpired "work" "work.first") := by
  refine ⟨erased_reachable, repeated_seen erased List.mem_cons_self, ?_, by decide +kernel⟩
  refine ⟨{
    workItem := (request "first" 100).workItem digests
    run := (request "first" 100).runCandidate ((request "first" 100).workItem digests)
    disposition := .replayed
    initialTransition := none }, by decide +kernel, rfl⟩

open ErasedExample in
theorem workAdmission_idempotent_erased :
    erased.rows.OneForEach ∧
      (erased.after digests (.receive (request "second" 200) (everywhere erased.rows))).rows =
        erased.rows := by
  obtain ⟨one, _, each⟩ :=
    workAdmission_idempotent support digests acuteSupport_keepsAscii erased_reachable
  have present : WorkItemRow.erased
    (((request "first" 100).workItem digests).erase digests.sha256) "key.first" ∈
      erased.rows.works := by decide +kernel
  obtain ⟨first, _, _, verdict⟩ := each _ present
  exact ⟨one, (verdict (request "second" 200) (everywhere erased.rows)
    (repeated_seen erased List.mem_cons_self) rfl).1⟩

end MarketingAgents
