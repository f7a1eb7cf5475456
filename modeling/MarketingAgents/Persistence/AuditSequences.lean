import MarketingAgents.Library.Machine
import MarketingAgents.Library.Numbered
import MarketingAgents.Persistence.AuditRepository

namespace MarketingAgents

open Library

/-! # Concurrent appends

Transactions interleave statement by statement.  A counter row that one of them
wrote is held until it ends, so that another one waits for it.
-/

/-- The committed rows and the transactions that are open on them. -/
structure AuditSystem where
  log : AuditLog
  transactions : String → Option AuditTransaction

inductive AuditOperation where
  | begin
  | receive (runId : String)
  | appendMany (drafts : List AuditEventDraft)
  | appendGlobalMany (drafts : List AuditEventDraft)
  | resume
  | commit
  | rollback

namespace AuditSystem

variable (system : AuditSystem)

def write (name : String) (transaction : Option AuditTransaction) : AuditSystem :=
  { system with transactions := Function.update system.transactions name transaction }

/-- No other transaction holds the row. -/
def Free (name : String) (holds : AuditTransaction → Bool) : Prop :=
  ∀ other transaction, other ≠ name → system.transactions other = some transaction →
    holds transaction = false

/-- One statement of a transaction, the decision to commit it or to abandon it. -/
def Applies (name : String) (after : AuditSystem) : AuditOperation → Prop
  | .begin => system.transactions name = none ∧ after = system.write name (some .empty)
  | .receive runId => ∃ transaction received, system.transactions name = some transaction ∧
      system.Free name (·.holdsTimeline runId) ∧
      transaction.receive (system.log.seenBy transaction) runId = some received ∧
      after = system.write name (some received)
  | .appendMany drafts => ∃ transaction, system.transactions name = some transaction ∧
      (transaction.stage = .idle ∨
        ∃ runId, transaction.stage = .received runId ∧ drafts.head?.bind (·.runId) = some runId) ∧
      (∀ runId, drafts.head?.bind (·.runId) = some runId →
        system.Free name (·.holdsTimeline runId)) ∧
      after = system.write name
        (some (transaction.appendMany (system.log.seenBy transaction) drafts))
  | .appendGlobalMany drafts => ∃ transaction, system.transactions name = some transaction ∧
      transaction.stage = .idle ∧
      after = system.write name (some (transaction.appendGlobalMany drafts))
  | .resume => ∃ transaction, system.transactions name = some transaction ∧
      (transaction.needsFeed (system.log.seenBy transaction) → system.Free name (·.holdsFeed)) ∧
      after = system.write name (some (transaction.resume (system.log.seenBy transaction)))
  | .commit => ∃ transaction, system.transactions name = some transaction ∧
      transaction.stage = .idle ∧
      after = { system.write name none with log := system.log.seenBy transaction }
  | .rollback => after = system.write name none

end AuditSystem

/-- Repository calls of any number of transactions, from empty tables on. -/
def auditMachine : Machine AuditSystem (String × AuditOperation) where
  initial system := system.log = { timelines := .empty, feed := none, events := [] } ∧
    ∀ name, system.transactions name = none
  step system operation after := system.Applies operation.1 after operation.2

namespace AuditAllocation

theorem numbered_ofRun {firstSequence : Nat} :
    Numbered (fun allocation => allocation.runSequence.getD 0) firstSequence
      (ofRun drafts firstSequence) := by
  induction drafts generalizing firstSequence with
  | nil => exact .nil
  | cons draft rest ih =>
      have shifted : ofRun (draft :: rest) firstSequence =
          { draft, runSequence := some firstSequence } :: ofRun rest (firstSequence + 1) := by
        simp only [ofRun, List.mapIdx_cons, Nat.add_zero, List.cons.injEq, true_and]
        congr 1
        funext offset draft
        rw [Nat.add_assoc, Nat.add_comm 1]
      rw [shifted, Numbered.cons_iff]
      exact ⟨rfl, ih⟩

theorem numbered_toRecords {firstSequence : Nat} :
    Numbered (·.feedSequence) firstSequence (toRecords allocations firstSequence) := by
  induction allocations generalizing firstSequence with
  | nil => exact .nil
  | cons allocation rest ih =>
      have shifted : toRecords (allocation :: rest) firstSequence =
          ⟨allocation.draft, allocation.runSequence, firstSequence⟩ ::
              toRecords rest (firstSequence + 1) := by
        simp only [toRecords, List.mapIdx_cons, Nat.add_zero, List.cons.injEq, true_and]
        congr 1
        funext offset allocation
        rw [Nat.add_assoc, Nat.add_comm 1]
      rw [shifted, Numbered.cons_iff]
      exact ⟨rfl, ih⟩

@[simp] theorem length_ofRun {firstSequence : Nat} :
    (ofRun drafts firstSequence).length = drafts.length := by
  simp [ofRun]

@[simp] theorem length_toRecords {firstSequence : Nat} :
    (toRecords allocations firstSequence).length = allocations.length := by
  simp [toRecords]

theorem mem_ofRun {firstSequence : Nat} {allocation : AuditAllocation}
    (member : allocation ∈ ofRun drafts firstSequence) :
    allocation.draft ∈ drafts ∧ allocation.runSequence ≠ none := by
  simp only [ofRun, List.mem_mapIdx] at member
  obtain ⟨offset, inside, rfl⟩ := member
  exact ⟨List.getElem_mem inside, by simp⟩

end AuditAllocation

def AuditEventRecord.allocation (record : AuditEventRecord) : AuditAllocation where
  draft := record.draft
  runSequence := record.runSequence

theorem AuditAllocation.allocation_toRecords {firstSequence : Nat} :
    (toRecords allocations firstSequence).map (·.allocation) = allocations := by
  apply List.ext_getElem
  · simp
  · intro index _ _
    simp [toRecords, AuditEventRecord.allocation]

/-- The places that a started append has taken and not yet filled. -/
def AppendStage.allocations : AppendStage → List AuditAllocation
  | .counted _ drafts endSequence => AuditAllocation.ofRun drafts (endSequence - drafts.length + 1)
  | .allocating allocations | .counterMissing allocations | .counterCreating allocations |
    .reallocating allocations | .allocated allocations _ | .inserting allocations _ => allocations
  | .idle | .received _ | .failed _ => []

/-- How many numbers of the feed it has taken and not yet filled. -/
def AppendStage.feedPending : AppendStage → Nat
  | .allocated allocations _ | .inserting allocations _ => allocations.length
  | _ => 0

namespace AuditTransaction

def allocations (transaction : AuditTransaction) : List AuditAllocation :=
  transaction.events.map (·.allocation) ++ transaction.stage.allocations

def timeline (transaction : AuditTransaction) (runId : String) : List AuditAllocation :=
  transaction.allocations.filter fun allocation => allocation.draft.runId = some runId

/-- The numbers a stage remembers are those that the counters stand at. -/
def StageAgrees (log : AuditLog) (transaction : AuditTransaction) : AppendStage → Prop
  | .counted _ drafts endSequence => drafts.length ≤ endSequence
  | .allocated allocations endSequence => transaction.feed = some endSequence ∧
      allocations.length ≤ endSequence
  | .inserting _ firstSequence => transaction.feed ≠ none ∧
      firstSequence = log.feed.getD 0 + transaction.events.length + 1
  | _ => True

/-- What a live transaction wrote continues the committed counters without a gap. -/
structure Accounted (log : AuditLog) (transaction : AuditTransaction) : Prop where
  timeline : ∀ runId, Numbered (fun allocation => allocation.runSequence.getD 0)
    ((log.timelines.get? runId).getD 0 + 1) (transaction.timeline runId)
  counter : ∀ runId, (log.timelines.get? runId).getD 0 + (transaction.timeline runId).length =
    ((log.seenBy transaction).timelines.get? runId).getD 0
  feed : Numbered (·.feedSequence) (log.feed.getD 0 + 1) transaction.events
  feedCounter : log.feed.getD 0 + transaction.events.length + transaction.stage.feedPending =
    (log.seenBy transaction).feed.getD 0
  runless : ∀ allocation ∈ transaction.allocations, allocation.draft.runId = none →
    allocation.runSequence = none
  started : ∀ runId, transaction.timelines.get? runId = some 0 → transaction.stage = .received runId
  stage : transaction.StageAgrees log transaction.stage

/-- A transaction that failed can only be abandoned. -/
def Sound (log : AuditLog) (transaction : AuditTransaction) : Prop :=
  (∃ error, transaction.stage = .failed error) ∨ transaction.Accounted log

end AuditTransaction

@[simp] theorem AuditLog.get?_seenBy {log : AuditLog} :
    (log.seenBy transaction).timelines.get? runId =
      (transaction.timelines.get? runId).or (log.timelines.get? runId) :=
  Table.get?_overlay

@[simp] theorem AuditLog.feed_seenBy {log : AuditLog} :
    (log.seenBy transaction).feed = transaction.feed.or log.feed := rfl

namespace AuditTransaction

variable {log : AuditLog} {transaction : AuditTransaction}

theorem accounted_empty : empty.Accounted log where
  timeline _ := .nil
  counter runId := by simp [empty, timeline, allocations, AppendStage.allocations]
  feed := .nil
  feedCounter := by simp [empty, AppendStage.feedPending]
  runless := by simp [empty, allocations, AppendStage.allocations]
  started := by simp [empty]
  stage := trivial

theorem Sound.accounted (sound : transaction.Sound log) (idle : transaction.stage = .idle ∨
    ∃ runId, transaction.stage = .received runId) : transaction.Accounted log := by
  rcases sound with ⟨error, failed⟩ | accounted
  · rcases idle with idle | ⟨_, received⟩
    · cases failed.symm.trans idle
    · cases failed.symm.trans received
  · exact accounted

theorem receive_accounted (accounted : transaction.Accounted log)
    (inserted : transaction.receive (log.seenBy transaction) runId = some received) :
    received.Accounted log := by
  simp only [receive, Option.bind_eq_bind, Option.bind_eq_some_iff, Option.guard_eq_some',
    Option.pure_def, Option.some.injEq, exists_and_left, exists_const] at inserted
  obtain ⟨⟨idle, absent⟩, rfl⟩ := inserted
  have same : ∀ other, { transaction with
      timelines := transaction.timelines.put runId 0, stage :=
        AppendStage.received runId }.timeline other =
      transaction.timeline other := by
    intro other
    simp [AuditTransaction.timeline, allocations, AppendStage.allocations, idle]
  rw [AuditLog.get?_seenBy, Option.or_eq_none_iff] at absent
  refine ⟨fun other => ?_, fun other => ?_, accounted.feed, ?_, ?_, fun other zero => ?_, trivial⟩
  · rw [same]
    exact accounted.timeline other
  · rw [same, accounted.counter other]
    simp only [AuditLog.get?_seenBy, Table.get?_put]
    by_cases here : other = runId
    · subst here
      simp [absent.1, absent.2]
    · simp [here]
  · have counted := accounted.feedCounter
    simp only [idle] at counted
    exact counted
  · have runless := accounted.runless
    simp only [allocations, idle] at runless
    exact runless
  · rw [Table.get?_put] at zero
    by_cases here : other = runId
    · rw [here]
    · rw [if_neg here] at zero
      cases idle.symm.trans (accounted.started other zero)

theorem checkRunBatch_ok (accepted : checkRunBatch drafts = .ok runId) :
    drafts.head?.bind (·.runId) = some runId ∧ 0 < drafts.length ∧
      ∀ draft ∈ drafts, draft.runId = some runId := by
  simp only [checkRunBatch, bind_ok, require_ok, requireSome_ok, pure_ok, exists_const,
    List.all_eq_true, decide_eq_true_eq] at accepted
  obtain ⟨bounded, found, first, same, _, rfl⟩ := accepted
  exact ⟨first, List.length_pos_iff.mpr bounded.1, same⟩

theorem appendMany_sound {drafts : List AuditEventDraft} (accounted : transaction.Accounted log)
    (ready : transaction.stage = .idle ∨
      ∃ runId, transaction.stage = .received runId ∧ drafts.head?.bind (·.runId) = some runId) :
    (transaction.appendMany (log.seenBy transaction) drafts).Sound log := by
  have nothing : transaction.stage.allocations = [] ∧ transaction.stage.feedPending = 0 := by
    rcases ready with idle | ⟨_, received, _⟩
    · simp [idle, AppendStage.allocations, AppendStage.feedPending]
    · simp [received, AppendStage.allocations, AppendStage.feedPending]
  unfold appendMany
  split
  · exact .inl ⟨_, rfl⟩
  · rename_i runId accepted
    obtain ⟨first, positive, owned⟩ := checkRunBatch_ok accepted
    split
    · exact .inl ⟨_, rfl⟩
    · rename_i last present
      right
      have start : last + drafts.length - drafts.length + 1 = last + 1 := by omega
      have timelineOf : ∀ other, AuditTransaction.timeline { transaction with
            timelines := transaction.timelines.put runId (last + drafts.length)
            stage := .counted runId drafts (last + drafts.length) } other =
              transaction.timeline other ++
          if other = runId then AuditAllocation.ofRun drafts (last + 1) else [] := by
        intro other
        simp only [AuditTransaction.timeline, allocations, nothing.1]
        simp only [AppendStage.allocations, start, List.filter_append, List.append_nil]
        congr 1
        split
        · rename_i same
          rw [List.filter_eq_self]
          intro allocation member
          simpa [same] using owned _ (AuditAllocation.mem_ofRun member).1
        · rename_i differs
          rw [List.filter_eq_nil_iff]
          intro allocation member
          have run := owned _ (AuditAllocation.mem_ofRun member).1
          simp only [run, Option.some.injEq, decide_eq_true_eq]
          exact fun same => differs same.symm
      have counter := accounted.counter runId
      rw [present, Option.getD_some] at counter
      refine ⟨fun other => ?_, fun other => ?_, accounted.feed, ?_, ?_, fun other zero => ?_, ?_⟩
      · rw [timelineOf]
        split
        · rename_i same
          subst same
          rw [Numbered.append_iff]
          refine ⟨accounted.timeline other, ?_⟩
          have next : (log.timelines.get? other).getD 0 + 1 + (transaction.timeline other).length =
              last + 1 := by
            omega
          rw [next]
          exact AuditAllocation.numbered_ofRun
        · rw [List.append_nil]
          exact accounted.timeline other
      · rw [timelineOf]
        simp only [AuditLog.get?_seenBy, Table.get?_put]
        split
        · rename_i same
          subst same
          simp only [List.length_append, AuditAllocation.length_ofRun, Option.some_or,
            Option.getD_some]
          omega
        · have others := accounted.counter other
          simpa using others
      · have counted := accounted.feedCounter
        rw [nothing.2] at counted
        exact counted
      · intro allocation member runless
        simp only [allocations, AppendStage.allocations, List.mem_append] at member
        rcases member with before | added
        · exact accounted.runless allocation (List.mem_append_left _ before) runless
        · cases runless.symm.trans (owned _ (AuditAllocation.mem_ofRun added).1)
      · rw [Table.get?_put] at zero
        by_cases same : other = runId
        · rw [if_pos same] at zero
          have sum := Option.some.inj zero
          omega
        · rw [if_neg same] at zero
          have received := accounted.started other zero
          rcases ready with idle | ⟨again, received', head⟩
          · cases idle.symm.trans received
          · rw [received'] at received
            cases received
            exact absurd (Option.mem_unique head first) same
      · exact Nat.le_add_left _ _

theorem checkGlobalBatch_ok
    (accepted : checkGlobalBatch drafts = .ok done) : ∀ draft ∈ drafts, draft.runId = none := by
  simp only [checkGlobalBatch, bind_ok, require_ok, exists_const] at accepted
  obtain ⟨_, batch, _⟩ := accepted
  intro draft member
  have runless : drafts.all (fun event => event.runId = none) = true := by
    revert batch
    cases known : drafts.all (fun event => event.runId = none)
    · simp [AuditEventDraft.globalBatch, known]
    · simp
  simpa using List.all_eq_true.mp runless draft member

theorem appendGlobalMany_sound (accounted : transaction.Accounted log)
    (idle : transaction.stage = .idle) : (transaction.appendGlobalMany drafts).Sound log := by
  unfold appendGlobalMany
  split
  · exact .inl ⟨_, rfl⟩
  · rename_i accepted
    have runless := checkGlobalBatch_ok accepted
    right
    have timelineOf : ∀ other, AuditTransaction.timeline { transaction with
          stage := .allocating (AuditAllocation.ofGlobal drafts) } other =
              transaction.timeline other := by
      intro other
      simp only [AuditTransaction.timeline, allocations, idle, AppendStage.allocations,
        List.filter_append, List.append_nil, List.append_right_eq_self, List.filter_eq_nil_iff]
      intro allocation member
      simp only [AuditAllocation.ofGlobal, List.mem_map] at member
      obtain ⟨draft, listed, rfl⟩ := member
      simp [runless draft listed]
    refine ⟨fun other => ?_, fun other => ?_, accounted.feed, ?_, ?_, fun other zero => ?_, trivial⟩
    · rw [timelineOf]
      exact accounted.timeline other
    · rw [timelineOf]
      exact accounted.counter other
    · have counted := accounted.feedCounter
      rw [idle] at counted
      exact counted
    · intro allocation member unowned
      simp only [allocations, AppendStage.allocations, List.mem_append] at member
      rcases member with before | added
      · exact accounted.runless allocation (List.mem_append_left _ before) unowned
      · simp only [AuditAllocation.ofGlobal, List.mem_map] at added
        obtain ⟨draft, _, rfl⟩ := added
        rfl
    · cases idle.symm.trans (accounted.started other zero)

theorem Accounted.moved {stage : AppendStage} (accounted : transaction.Accounted log)
    (allocations : stage.allocations = transaction.stage.allocations)
    (pending : stage.feedPending = transaction.stage.feedPending)
    (receiving : ∀ runId, transaction.stage ≠ .received runId)
    (agrees : transaction.StageAgrees log stage) :
    Accounted log { transaction with stage } := by
  have same : ∀ other, AuditTransaction.timeline { transaction with stage } other =
      transaction.timeline other := by
    intro other
    simp only [AuditTransaction.timeline, AuditTransaction.allocations, allocations]
  refine ⟨fun other => ?_, fun other => ?_, accounted.feed, ?_, ?_, fun other zero => ?_, agrees⟩
  · rw [same]
    exact accounted.timeline other
  · rw [same]
    exact accounted.counter other
  · rw [pending]
    exact accounted.feedCounter
  · simp only [AuditTransaction.allocations, allocations]
    exact accounted.runless
  · exact absurd (accounted.started other zero) (receiving other)

theorem allocateFeed_sound {allocations : List AuditAllocation} {otherwise : AppendStage}
    (accounted : transaction.Accounted log)
    (allocated : transaction.stage.allocations = allocations)
    (pending : transaction.stage.feedPending = 0)
    (receiving : ∀ runId, transaction.stage ≠ .received runId)
    (missing : Sound log { transaction with stage := otherwise }) :
    (transaction.allocateFeed (log.seenBy transaction) allocations otherwise).Sound log := by
  unfold allocateFeed
  split
  · exact missing
  · rename_i last present
    right
    have counted := accounted.feedCounter
    rw [present, pending, Option.getD_some] at counted
    have same : ∀ other, AuditTransaction.timeline { transaction with
        feed := some (last + allocations.length)
        stage := .allocated allocations (last + allocations.length) } other =
            transaction.timeline other := by
      intro other
      simp only [AuditTransaction.timeline, AuditTransaction.allocations, allocated]
      rfl
    refine ⟨fun other => ?_, fun other => ?_, accounted.feed, ?_, ?_, fun other zero => ?_, ?_⟩
    · rw [same]
      exact accounted.timeline other
    · rw [same]
      exact accounted.counter other
    · simp only [AppendStage.feedPending, AuditLog.feed_seenBy, Option.some_or, Option.getD_some]
      omega
    · have runless := accounted.runless
      simp only [AuditTransaction.allocations, allocated] at runless
      exact runless
    · exact absurd (accounted.started other zero) (receiving other)
    · exact ⟨rfl, Nat.le_add_left _ _⟩

theorem insert_accounted {allocations : List AuditAllocation} {firstSequence : Nat}
    (accounted : transaction.Accounted log)
    (stage : transaction.stage = .inserting allocations firstSequence) :
    Accounted log { transaction with
      events := transaction.events ++ AuditAllocation.toRecords allocations firstSequence,
      stage := .idle } := by
  have here := accounted.stage
  rw [stage, StageAgrees] at here
  have same : AuditTransaction.allocations { transaction with
      events := transaction.events ++ AuditAllocation.toRecords allocations firstSequence,
      stage := .idle } =
      transaction.allocations := by
    simp [AuditTransaction.allocations, stage, AppendStage.allocations,
      AuditAllocation.allocation_toRecords]
  refine ⟨fun other => ?_, fun other => ?_, ?_, ?_, ?_, fun other zero => ?_, trivial⟩
  · rw [AuditTransaction.timeline, same]
    exact accounted.timeline other
  · rw [AuditTransaction.timeline, same]
    exact accounted.counter other
  · rw [Numbered.append_iff]
    refine ⟨accounted.feed, ?_⟩
    have start := here.2
    have next : log.feed.getD 0 + 1 + transaction.events.length = firstSequence := by omega
    rw [next]
    exact AuditAllocation.numbered_toRecords
  · have counted := accounted.feedCounter
    rw [stage] at counted
    simp only [AppendStage.feedPending] at counted
    simp only [AppendStage.feedPending, List.length_append, AuditAllocation.length_toRecords]
    exact (Nat.add_assoc _ _ _).symm.trans counted
  · rw [same]
    exact accounted.runless
  · cases stage.symm.trans (accounted.started other zero)

/-- Every statement of an append keeps the account or fails. -/
theorem resume_sound (accounted : transaction.Accounted log) :
    (transaction.resume (log.seenBy transaction)).Sound log := by
  have here := accounted.stage
  unfold resume
  split
  · exact .inr accounted
  · exact .inr accounted
  · exact .inr accounted
  · rename_i runId drafts endSequence stage
    simp only
    split
    · exact .inr (accounted.moved (by simp [stage, AppendStage.allocations])
        (by simp [stage, AppendStage.feedPending]) (by simp [stage]) trivial)
    · exact .inl ⟨_, rfl⟩
  · rename_i allocations stage
    refine allocateFeed_sound accounted (by simp [stage, AppendStage.allocations])
      (by simp [stage, AppendStage.feedPending]) (by simp [stage]) (.inr ?_)
    exact accounted.moved (by simp [stage, AppendStage.allocations])
      (by simp [stage, AppendStage.feedPending]) (by simp [stage]) trivial
  · rename_i allocations stage
    split
    · exact .inr (accounted.moved (by simp [stage, AppendStage.allocations])
        (by simp [stage, AppendStage.feedPending]) (by simp [stage]) trivial)
    · exact .inl ⟨_, rfl⟩
  · rename_i allocations stage
    have moved : Accounted log { transaction with stage := .reallocating allocations } :=
      accounted.moved (by simp [stage, AppendStage.allocations])
        (by simp [stage, AppendStage.feedPending]) (by simp [stage]) trivial
    right
    split
    · rename_i absent
      refine ⟨moved.timeline, moved.counter, moved.feed, ?_, moved.runless, moved.started, trivial⟩
      have counted := moved.feedCounter
      rw [AuditLog.feed_seenBy] at absent counted
      rw [absent] at counted
      simpa using counted
    · exact moved
  · rename_i allocations stage
    exact allocateFeed_sound accounted (by simp [stage, AppendStage.allocations])
      (by simp [stage, AppendStage.feedPending]) (by simp [stage]) (.inl ⟨_, rfl⟩)
  · rename_i allocations endSequence stage
    simp only
    split
    · have counted := accounted.feedCounter
      rw [stage] at counted here
      simp only [AppendStage.feedPending, AuditLog.feed_seenBy] at counted
      obtain ⟨written, bounded⟩ := here
      rw [written, Option.some_or, Option.getD_some] at counted
      refine .inr (accounted.moved (by simp [stage, AppendStage.allocations])
        (by simp [stage, AppendStage.feedPending]) (by simp [stage]) ?_)
      refine ⟨by simp [written], ?_⟩
      omega
    · exact .inl ⟨_, rfl⟩
  · rename_i allocations firstSequence stage
    simp only
    split
    · exact .inr (insert_accounted accounted stage)
    · exact .inl ⟨_, rfl⟩

/-- A statement acquires no row but the one it needs. -/
theorem resume_holds :
    (transaction.resume view).timelines = transaction.timelines ∧
      ((transaction.resume view).holdsFeed → transaction.holdsFeed ∨
        transaction.needsFeed view) := by
  unfold resume holdsFeed
  split
  · exact ⟨rfl, .inl⟩
  · exact ⟨rfl, .inl⟩
  · exact ⟨rfl, .inl⟩
  · simp only
    split
    · exact ⟨rfl, .inl⟩
    · exact ⟨rfl, .inl⟩
  · rename_i allocations stage
    unfold allocateFeed
    split
    · exact ⟨rfl, .inl⟩
    · rename_i last present
      exact ⟨rfl, fun _ => .inr (by simp [needsFeed, stage, present])⟩
  · split
    · exact ⟨rfl, .inl⟩
    · exact ⟨rfl, .inl⟩
  · rename_i allocations stage
    exact ⟨rfl, fun _ => .inr (by simp [needsFeed, stage])⟩
  · rename_i allocations stage
    unfold allocateFeed
    split
    · exact ⟨rfl, .inl⟩
    · rename_i last present
      exact ⟨rfl, fun _ => .inr (by simp [needsFeed, stage, present])⟩
  · simp only
    split
    · exact ⟨rfl, .inl⟩
    · exact ⟨rfl, .inl⟩
  · simp only
    split
    · exact ⟨rfl, .inl⟩
    · exact ⟨rfl, .inl⟩

theorem appendMany_holds :
    (transaction.appendMany view drafts).feed = transaction.feed ∧
      ∀ runId, (transaction.appendMany view drafts).holdsTimeline runId →
        transaction.holdsTimeline runId ∨ drafts.head?.bind (·.runId) = some runId := by
  unfold appendMany
  split
  · exact ⟨rfl, fun _ => .inl⟩
  · rename_i runId accepted
    split
    · exact ⟨rfl, fun _ => .inl⟩
    · refine ⟨rfl, fun other held => ?_⟩
      simp only [holdsTimeline, Table.get?_put] at held ⊢
      split at held
      · rename_i same
        rw [same]
        exact .inr (checkRunBatch_ok accepted).1
      · exact .inl held

theorem Accounted.unheld (accounted : transaction.Accounted log)
    (unheld : transaction.holdsTimeline runId = false) : transaction.timeline runId = [] := by
  have counter := accounted.counter runId
  simp only [holdsTimeline, Option.isSome_eq_false_iff, Option.isNone_iff_eq_none] at unheld
  rw [AuditLog.get?_seenBy, unheld, Option.none_or] at counter
  exact List.length_eq_zero_iff.mp (by omega)

theorem Accounted.feedUnheld (accounted : transaction.Accounted log)
    (unheld : transaction.holdsFeed = false) :
    transaction.events = [] ∧ transaction.stage.feedPending = 0 := by
  have counter := accounted.feedCounter
  simp only [holdsFeed, Option.isSome_eq_false_iff, Option.isNone_iff_eq_none] at unheld
  rw [AuditLog.feed_seenBy, unheld, Option.none_or] at counter
  exact ⟨List.length_eq_zero_iff.mp (by omega), by omega⟩

/-- The account survives what others commit to rows the transaction does not hold. -/
theorem Accounted.kept {after : AuditLog} (accounted : transaction.Accounted log)
    (timelines : ∀ runId, transaction.holdsTimeline runId = true →
      after.timelines.get? runId = log.timelines.get? runId)
    (feed : transaction.holdsFeed = true → after.feed = log.feed) :
      transaction.Accounted after := by
  refine ⟨fun runId => ?_, fun runId => ?_, ?_, ?_, accounted.runless, accounted.started, ?_⟩
  · cases held : transaction.holdsTimeline runId with
    | true =>
        rw [timelines runId held]
        exact accounted.timeline runId
    | false =>
        rw [accounted.unheld held]
        exact .nil
  · cases held : transaction.holdsTimeline runId with
    | true =>
        rw [AuditLog.get?_seenBy, timelines runId held, ← AuditLog.get?_seenBy]
        exact accounted.counter runId
    | false =>
        have absent : transaction.timelines.get? runId = none := by
          simpa [holdsTimeline] using held
        rw [accounted.unheld held, AuditLog.get?_seenBy, absent]
        simp
  · cases held : transaction.holdsFeed with
    | true =>
        rw [feed held]
        exact accounted.feed
    | false =>
        rw [(accounted.feedUnheld held).1]
        exact .nil
  · cases held : transaction.holdsFeed with
    | true =>
        rw [AuditLog.feed_seenBy, feed held, ← AuditLog.feed_seenBy]
        exact accounted.feedCounter
    | false =>
        have absent : transaction.feed = none := by simpa [holdsFeed] using held
        rw [AuditLog.feed_seenBy, absent, (accounted.feedUnheld held).1,
          (accounted.feedUnheld held).2]
        simp
  · cases held : transaction.holdsFeed with
    | true =>
        have agrees := accounted.stage
        revert agrees
        cases transaction.stage <;> simp [StageAgrees, feed held]
    | false =>
        have agrees := accounted.stage
        have absent : transaction.feed = none := by simpa [holdsFeed] using held
        revert agrees
        cases transaction.stage <;> simp [StageAgrees, absent]

end AuditTransaction

/-- The committed events fill the numbers up to the committed counters. -/
structure AuditLog.Consistent (log : AuditLog) : Prop where
  timeline : ∀ runId, Numbered (fun event => event.runSequence.getD 0) 1 (log.timeline runId)
  counter : ∀ runId, (log.timeline runId).length = (log.timelines.get? runId).getD 0
  feed : Numbered (·.feedSequence) 1 log.events
  feedCounter : log.events.length = log.feed.getD 0
  runless : ∀ event ∈ log.events, event.draft.runId = none → event.runSequence = none
  started : ∀ runId, log.timelines.get? runId ≠ some 0

namespace AuditTransaction

variable {log : AuditLog} {transaction : AuditTransaction}

theorem timeline_idle (idle : transaction.stage = .idle) (runId : String) :
    transaction.timeline runId =
      (transaction.events.filter fun event => event.draft.runId = some runId).map
        (·.allocation) := by
  simp only [timeline, allocations, idle, AppendStage.allocations, List.append_nil, List.filter_map]
  rfl

/-- Committing a transaction that is at rest leaves a consistent log. -/
theorem Accounted.commit (accounted : transaction.Accounted log) (consistent : log.Consistent)
    (idle : transaction.stage = .idle) : (log.seenBy transaction).Consistent := by
  have timelineOf : ∀ runId, (log.seenBy transaction).timeline runId = log.timeline runId ++
      transaction.events.filter fun event => event.draft.runId = some runId :=
    fun runId => List.filter_append ..
  have lengthOf : ∀ runId, (transaction.timeline runId).length =
      (transaction.events.filter fun event => event.draft.runId = some runId).length := by
    intro runId
    rw [timeline_idle idle, List.length_map]
  refine ⟨fun runId => ?_, fun runId => ?_, ?_, ?_, fun event member runless => ?_,
    fun runId zero => ?_⟩
  · rw [timelineOf, Numbered.append_iff]
    refine ⟨consistent.timeline runId, ?_⟩
    have added := accounted.timeline runId
    rw [timeline_idle idle, Numbered.map_iff] at added
    rw [consistent.counter, Nat.add_comm]
    exact added
  · rw [timelineOf, List.length_append, consistent.counter, ← lengthOf]
    exact accounted.counter runId
  · show Numbered _ 1 (log.events ++ transaction.events)
    rw [Numbered.append_iff]
    refine ⟨consistent.feed, ?_⟩
    rw [consistent.feedCounter, Nat.add_comm]
    exact accounted.feed
  · have counted := accounted.feedCounter
    rw [idle] at counted
    show (log.events ++ transaction.events).length = _
    rw [List.length_append, consistent.feedCounter]
    exact counted
  · rcases List.mem_append.mp member with before | added
    · exact consistent.runless event before runless
    · have allocated : event.allocation ∈ transaction.allocations :=
        List.mem_append_left _ (List.mem_map_of_mem added)
      exact accounted.runless event.allocation allocated runless
  · rw [AuditLog.get?_seenBy] at zero
    cases written : transaction.timelines.get? runId with
    | none =>
        rw [written, Option.none_or] at zero
        exact consistent.started runId zero
    | some count =>
        rw [written, Option.some_or] at zero
        cases idle.symm.trans (accounted.started runId (written.trans zero))

end AuditTransaction

namespace AuditSystem

variable {system after : AuditSystem} {name : String} {transaction written : AuditTransaction}

/-- The invariant of the interleaving: the log is consistent, every open
transaction is sound, and no row is held twice. -/
structure Ordered (system : AuditSystem) : Prop where
  consistent : system.log.Consistent
  sound : ∀ name transaction, system.transactions name = some transaction →
    transaction.Sound system.log
  timelines : ∀ left right mine yours runId, left ≠ right → system.transactions left = some mine →
    system.transactions right = some yours → mine.holdsTimeline runId = true →
    yours.holdsTimeline runId = false
  feed : ∀ left right mine yours, left ≠ right → system.transactions left = some mine →
    system.transactions right = some yours → mine.holdsFeed = true → yours.holdsFeed = false

theorem transactions_write {other : String} {transaction : Option AuditTransaction} :
    (system.write name transaction).transactions other =
      if other = name then transaction else system.transactions other :=
  Function.update_apply ..

theorem Ordered.initial (initial : auditMachine.initial system) : Ordered system := by
  obtain ⟨empty, closed⟩ := initial
  refine ⟨?_, ?_, ?_, ?_⟩
  · rw [empty]
    exact ⟨fun _ => .nil, fun _ => rfl, .nil, rfl, by simp, by simp⟩
  · intro name transaction present
    cases (closed name).symm.trans present
  · intro left _ mine _ _ _ present
    cases (closed left).symm.trans present
  · intro left _ mine _ _ present
    cases (closed left).symm.trans present

/-- A statement of one transaction keeps the order when it takes only free rows. -/
theorem Ordered.moved (ordered : system.Ordered) (sound : written.Sound system.log)
    (timelines : ∀ runId, written.holdsTimeline runId = true →
      system.Free name (·.holdsTimeline runId))
    (feed : written.holdsFeed = true → system.Free name (·.holdsFeed)) :
    (system.write name (some written)).Ordered := by
  refine ⟨ordered.consistent, ?_, ?_, ?_⟩
  · intro other transaction present
    rw [transactions_write] at present
    split at present
    · cases present
      exact sound
    · exact ordered.sound other transaction present
  · intro left right mine yours runId differs first second held
    rw [transactions_write] at first second
    split at first
    · rename_i same
      subst same
      cases first
      rw [if_neg (Ne.symm differs)] at second
      exact timelines runId held right yours (Ne.symm differs) second
    · rename_i leftOther
      split at second
      · cases second
        by_contra also
        have taken := timelines runId (by simpa using also) left mine leftOther first
        exact Bool.false_ne_true (taken.symm.trans held)
      · exact ordered.timelines left right mine yours runId differs first second held
  · intro left right mine yours differs first second held
    rw [transactions_write] at first second
    split at first
    · rename_i same
      subst same
      cases first
      rw [if_neg (Ne.symm differs)] at second
      exact feed held right yours (Ne.symm differs) second
    · rename_i leftOther
      split at second
      · cases second
        by_contra also
        have taken := feed (by simpa using also) left mine leftOther first
        exact Bool.false_ne_true (taken.symm.trans held)
      · exact ordered.feed left right mine yours differs first second held

theorem Ordered.free (ordered : system.Ordered)
    (present : system.transactions name = some transaction) :
    (∀ runId, transaction.holdsTimeline runId = true → system.Free name (·.holdsTimeline runId)) ∧
      (transaction.holdsFeed = true → system.Free name (·.holdsFeed)) :=
  ⟨fun runId held other yours differs second =>
      ordered.timelines name other transaction yours runId (Ne.symm differs) present second held,
    fun held other yours differs second =>
      ordered.feed name other transaction yours (Ne.symm differs) present second held⟩

theorem Ordered.closed (ordered : system.Ordered) : (system.write name none).Ordered := by
  have others : ∀ {other transaction}, (system.write name none).transactions other =
    some transaction →
      system.transactions other = some transaction := by
    intro other transaction present
    rw [transactions_write] at present
    split at present
    · cases present
    · exact present
  exact ⟨ordered.consistent, fun other transaction present =>
    ordered.sound other transaction (others present),
    fun left right mine yours runId differs first second held =>
      ordered.timelines left right mine yours runId differs (others first) (others second) held,
    fun left right mine yours differs first second held =>
      ordered.feed left right mine yours differs (others first) (others second) held⟩

theorem Ordered.committed (ordered : system.Ordered)
    (present : system.transactions name = some transaction) (idle : transaction.stage = .idle) :
    Ordered { system.write name none with log := system.log.seenBy transaction } := by
  have accounted := (ordered.sound name transaction present).accounted (.inl idle)
  have closed : (system.write name none).Ordered := ordered.closed
  refine ⟨accounted.commit ordered.consistent idle, ?_, closed.timelines, closed.feed⟩
  intro other open' still
  have differs : other ≠ name := by
    rintro rfl
    rw [transactions_write, if_pos rfl] at still
    cases still
  have before : system.transactions other = some open' := by
    rwa [transactions_write, if_neg differs] at still
  rcases ordered.sound other open' before with failed | live
  · exact .inl failed
  · refine .inr (live.kept (fun runId held => ?_) fun held => ?_)
    · have unheld := ordered.timelines other name open' transaction runId differs
        before present held
      have unwritten : transaction.timelines.get? runId = none := by
        simpa [AuditTransaction.holdsTimeline] using unheld
      rw [AuditLog.get?_seenBy, unwritten, Option.none_or]
    · have unheld := ordered.feed other name open' transaction differs before present held
      have unwritten : transaction.feed = none := by simpa [AuditTransaction.holdsFeed] using unheld
      rw [AuditLog.feed_seenBy, unwritten, Option.none_or]

/-- Every operation keeps the order. -/
theorem Ordered.next {operation : AuditOperation} (ordered : system.Ordered)
    (applied : system.Applies name after operation) : after.Ordered := by
  cases operation with
  | begin =>
      obtain ⟨_, rfl⟩ := applied
      exact ordered.moved (.inr AuditTransaction.accounted_empty)
        (by simp [AuditTransaction.holdsTimeline, AuditTransaction.empty])
        (by simp [AuditTransaction.holdsFeed, AuditTransaction.empty])
  | receive runId =>
      obtain ⟨transaction, received, present, free, inserted, rfl⟩ := applied
      have idle : transaction.stage = .idle ∧ received =
          { transaction with
              timelines := transaction.timelines.put runId 0, stage := .received runId } := by
        simp only [AuditTransaction.receive, Option.bind_eq_bind, Option.bind_eq_some_iff,
          Option.guard_eq_some', Option.pure_def, Option.some.injEq, exists_const] at inserted
        exact ⟨inserted.1.1, inserted.2.symm⟩
      have accounted := (ordered.sound name transaction present).accounted (.inl idle.1)
      obtain ⟨timelines, feed⟩ := ordered.free present
      refine ordered.moved (.inr (AuditTransaction.receive_accounted accounted inserted))
        (fun other held => ?_) fun held => feed (by rwa [idle.2] at held)
      rw [idle.2] at held
      simp only [AuditTransaction.holdsTimeline, Table.get?_put] at held
      split at held
      · rename_i same
        rw [same]
        exact free
      · exact timelines other held
  | appendMany drafts =>
      obtain ⟨transaction, present, ready, free, rfl⟩ := applied
      have accounted := (ordered.sound name transaction present).accounted (by
        rcases ready with idle | ⟨runId, received, _⟩
        · exact .inl idle
        · exact .inr ⟨runId, received⟩)
      obtain ⟨timelines, feed⟩ := ordered.free present
      obtain ⟨sameFeed, held⟩ := AuditTransaction.appendMany_holds
      refine ordered.moved (AuditTransaction.appendMany_sound accounted ready)
        (fun runId taken => ?_)
        fun taken => feed ?_
      · rcases held runId taken with before | first
        · exact timelines runId before
        · exact free runId first
      · rwa [AuditTransaction.holdsFeed, sameFeed] at taken
  | appendGlobalMany drafts =>
      obtain ⟨transaction, present, idle, rfl⟩ := applied
      have accounted := (ordered.sound name transaction present).accounted (.inl idle)
      obtain ⟨timelines, feed⟩ := ordered.free present
      have kept : (transaction.appendGlobalMany drafts).timelines = transaction.timelines ∧
          (transaction.appendGlobalMany drafts).feed = transaction.feed := by
        unfold AuditTransaction.appendGlobalMany
        split
        · exact ⟨rfl, rfl⟩
        · exact ⟨rfl, rfl⟩
      refine ordered.moved (AuditTransaction.appendGlobalMany_sound accounted idle)
        (fun runId taken => timelines runId ?_) fun taken => feed ?_
      · rwa [AuditTransaction.holdsTimeline, kept.1] at taken
      · rwa [AuditTransaction.holdsFeed, kept.2] at taken
  | resume =>
      obtain ⟨transaction, present, free, rfl⟩ := applied
      obtain ⟨timelines, feed⟩ := ordered.free present
      obtain ⟨same, held⟩ := AuditTransaction.resume_holds
      refine ordered.moved ?_ (fun runId taken => timelines runId ?_) fun taken => ?_
      · rcases ordered.sound name transaction present with ⟨error, failed⟩ | accounted
        · refine .inl ⟨error, ?_⟩
          simp [AuditTransaction.resume, failed]
        · exact AuditTransaction.resume_sound accounted
      · rwa [AuditTransaction.holdsTimeline, same] at taken
      · rcases held taken with before | needed
        · exact feed before
        · exact free needed
  | commit =>
      obtain ⟨transaction, present, idle, rfl⟩ := applied
      exact ordered.committed present idle
  | rollback =>
      obtain rfl := applied
      exact ordered.closed

theorem Ordered.reachable (reached : auditMachine.Reachable system) : system.Ordered :=
  reached.invariant Ordered .initial fun ordered stepped => ordered.next stepped

theorem Applies.grows (applied : system.Applies name after operation) :
    system.log.events <+: after.log.events := by
  cases operation with
  | begin =>
      obtain ⟨_, rfl⟩ := applied
      exact List.prefix_refl _
  | receive =>
      obtain ⟨_, _, _, _, _, rfl⟩ := applied
      exact List.prefix_refl _
  | appendMany =>
      obtain ⟨_, _, _, _, rfl⟩ := applied
      exact List.prefix_refl _
  | appendGlobalMany =>
      obtain ⟨_, _, _, rfl⟩ := applied
      exact List.prefix_refl _
  | resume =>
      obtain ⟨_, _, _, rfl⟩ := applied
      exact List.prefix_refl _
  | commit =>
      obtain ⟨_, _, _, rfl⟩ := applied
      exact List.prefix_append _ _
  | rollback =>
      obtain rfl := applied
      exact List.prefix_refl _

theorem run_grows (run : auditMachine.Run system after) :
    system.log.events <+: after.log.events := by
  induction run with
  | refl => exact List.prefix_refl _
  | tail operation _ _ stepped ih =>
      have applied : AuditSystem.Applies _ operation.1 _ operation.2 := stepped
      exact ih.trans applied.grows

end AuditSystem

end MarketingAgents
