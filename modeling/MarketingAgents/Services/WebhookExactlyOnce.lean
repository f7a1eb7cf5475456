import MarketingAgents.Library.RelatedLists
import MarketingAgents.Services.WebhookSoundness

namespace MarketingAgents

open Library

/-! # One receipt for each source event -/

namespace IntakeTransaction

variable {digests : KeyedDigests} {instances : List String} {rows added : IntakeRows}
variable {transaction : IntakeTransaction}

/-- What a submission knows while another one holds the locks survives its commit. -/
theorem Sound.append (sound : transaction.Sound digests instances rows)
    (waiting : ¬ transaction.Holding instances) :
      transaction.Sound digests instances (rows.append added) where
  arrived receipt member := List.mem_append_left _ (sound.arrived receipt member)
  bound := sound.bound
  stage := by
    have known := sound.stage
    have refused : ∀ error, transaction.Refused digests instances rows error →
        transaction.Refused digests instances (rows.append added) error := by
      intro error refused
      rcases refused with ⟨receipt, member, found⟩ | ⟨holding, _⟩
      · exact .inl ⟨receipt, List.mem_append_left _ member, found⟩
      · exact absurd holding waiting
    cases stage : transaction.stage with
    | reading | resolving =>
        rw [stage] at known
        exact known
    | rereading =>
        rw [stage] at known
        exact absurd known.2 waiting
    | validating | checking =>
        rw [stage] at known
        exact absurd known.2.1 waiting
    | admitting | receiving | recording =>
        rw [stage] at known
        exact absurd known.1 waiting
    | raising error =>
        rw [stage] at known
        exact refused error known
    | committing outcome =>
        rw [stage] at known
        match outcome with
        | .answered (.ok ⟨_, .created⟩) => exact absurd known.1 waiting
        | .answered (.ok ⟨_, .replayed⟩) =>
            exact ⟨known.1, List.mem_append_left _ known.2.1, known.2.2⟩
        | .answered (.error error) => exact ⟨known.1, refused error known.2⟩
        | .unresolved _ => exact known

section Locks

variable {view : IntakeRows} {input : IntakeInput}

theorem locks_readExisting :
    (transaction.readExisting digests view absent).locks = transaction.locks := by
  unfold readExisting
  split
  · rfl
  · rfl
  · split <;> rfl

theorem locks_validateAll : transaction.validateAll.locks = transaction.locks := by
  unfold validateAll
  split
  · rfl
  · split <;> rfl

theorem locks_checkAbsent :
    (transaction.checkAbsent view binding pending validated).locks = transaction.locks := by
  unfold checkAbsent
  split <;> rfl

theorem locks_admitNext :
    (transaction.admitNext digests view input incoming pending received).locks =
      transaction.locks := by
  unfold admitNext
  split <;> rfl

theorem locks_receiveNext :
    (transaction.receiveNext view input incoming admitted pending received).locks =
      transaction.locks := by
  unfold receiveNext
  split <;> rfl

theorem locks_record :
    (transaction.record digests view input received).locks = transaction.locks := by
  unfold record
  split <;> rfl

end Locks

/-- The statement that follows locks at most the row that it wants. -/
theorem locks_resume {row : String}
    (member : row ∈ (transaction.resume digests view input instances).locks) :
    row ∈ transaction.locks ∨ transaction.wants = some row := by
  unfold IntakeTransaction.resume at member
  unfold wants
  cases stage : transaction.stage with
  | resolving pending =>
      rw [stage] at member
      cases pending with
      | nil =>
          dsimp only at member
          split at member <;> exact .inl member
      | cons instanceId pending =>
          have locked : row ∈ transaction.locks ++ [instanceId] := by
            unfold resolveRow at member
            dsimp only at member
            split at member <;> exact member
          rcases List.mem_append.mp locked with before | new
          · exact .inl before
          · exact .inr (congrArg some (List.mem_singleton.mp new).symm)
  | reading | rereading =>
      rw [stage] at member
      exact .inl (locks_readExisting ▸ member)
  | validating =>
      rw [stage] at member
      exact .inl (locks_validateAll ▸ member)
  | checking pending validated =>
      rw [stage] at member
      cases pending with
      | nil => exact .inl member
      | cons binding pending => exact .inl (locks_checkAbsent ▸ member)
  | admitting pending received =>
      rw [stage] at member
      cases pending with
      | nil => exact .inl member
      | cons incoming pending => exact .inl (locks_admitNext ▸ member)
  | receiving =>
      rw [stage] at member
      exact .inl (locks_receiveNext ▸ member)
  | recording =>
      rw [stage] at member
      exact .inl (locks_record ▸ member)
  | committing | raising =>
      rw [stage] at member
      exact .inl member

theorem Sound.insert (sound : transaction.Sound digests instances rows)
    (works : transaction.written.conflictsWork work = false)
    (runs : transaction.written.conflictsRun run = false) :
    transaction.Sound digests instances (rows.append ⟨[work], [run], []⟩) := by
  have same : (rows.append ⟨[work], [run], []⟩).receipts = rows.receipts := List.append_nil _
  have absent : transaction.Absent (rows.append ⟨[work], [run], []⟩) ↔ transaction.Absent rows := by
    rw [IntakeTransaction.Absent, IntakeTransaction.Absent, same]
  have refused : ∀ error, transaction.Refused digests instances
    (rows.append ⟨[work], [run], []⟩) error ↔
      transaction.Refused digests instances rows error := by
    intro error
    rw [IntakeTransaction.Refused, IntakeTransaction.Refused, same, absent]
  refine ⟨same ▸ sound.arrived, sound.bound, ?_⟩
  have known := sound.stage
  cases stage : transaction.stage with
  | committing outcome =>
      rw [stage] at known
      match outcome with
      | .answered (.ok ⟨receipt, .created⟩) =>
          obtain ⟨holding, unseen, admitted, readable⟩ := known
          exact ⟨holding, absent.mpr unseen, admitted,
            (IntakeRows.keeps_insert works runs).toDomain readable⟩
      | .answered (.ok ⟨_, .replayed⟩) => exact ⟨known.1, same.symm ▸ known.2.1, known.2.2⟩
      | .answered (.error _) => exact ⟨known.1, (refused _).mpr known.2⟩
      | .unresolved _ => exact known
  | _ =>
      rw [stage] at known
      simpa only [IntakeTransaction.StageSound, absent, refused] using known

end IntakeTransaction

namespace IntakeSystem

/-- What holds between any two statements. -/
structure Ordered (digests : KeyedDigests) (instances : List String)
    (system : IntakeSystem) : Prop where
  sound : ∀ name transaction, system.transactions name = some transaction →
    transaction.Sound digests instances system.rows
  exclusive : ∀ name other transaction rival, name ≠ other →
    system.transactions name = some transaction →
    system.transactions other = some rival → ∀ row ∈ transaction.locks, row ∉ rival.locks
  readable : ∀ receipt ∈ system.rows.receipts, system.rows.toDomain receipt = .ok receipt
  distinct : (system.rows.receipts.map (·.sourceEvent)).Nodup
  receipts : system.rows.receipts = system.answers.flatMap (·.created.receipts)
  works : ∀ work, work ∈ system.rows.works ↔ work ∈ system.elsewhere.works ∨
    ∃ answer ∈ system.answers, work ∈ answer.created.works
  runs : ∀ run, run ∈ system.rows.runs ↔ run ∈ system.elsewhere.runs ∨
    ∃ answer ∈ system.answers, run ∈ answer.created.runs
  fair : ∀ earlier answer later, system.answers = earlier ++ answer :: later →
    answer.Fair digests (earlier.flatMap (·.created.receipts))

namespace Ordered

variable {digests : KeyedDigests} {instances : List String} {system : IntakeSystem} {name : String}

theorem write (ordered : system.Ordered digests instances) {transaction : IntakeTransaction}
    (sound : transaction.Sound digests instances system.rows)
    (free : ∀ other rival, other ≠ name → system.transactions other = some rival →
      ∀ row ∈ transaction.locks, row ∉ rival.locks) :
    (system.write name (some transaction)).Ordered digests instances where
  sound other found present := by
    by_cases same : other = name
    · subst same
      simp only [IntakeSystem.write, Function.update_self, Option.some.injEq] at present
      exact present ▸ sound
    · simp only [IntakeSystem.write, Function.update_of_ne same] at present
      exact ordered.sound other found present
  exclusive first second left right differs here there := by
    simp only [IntakeSystem.write, Function.update_apply] at here there
    split at here
    · next same =>
        rw [if_neg (fun equal => differs (same.trans equal.symm))] at there
        cases here
        exact free second right (fun equal => differs (same.trans equal.symm)) there
    · next other =>
        split at there
        · cases there
          intro row member held
          exact free first left other here row held member
        · exact ordered.exclusive first second left right differs here there
  readable := ordered.readable
  distinct := ordered.distinct
  receipts := ordered.receipts
  works := ordered.works
  runs := ordered.runs
  fair := ordered.fair

theorem alone (ordered : system.Ordered digests instances) {other : String} (differs : name ≠ other)
    (present : system.transactions name = some transaction)
    (against : system.transactions other = some rival)
    (holding : transaction.Holding instances) : ¬ rival.Holding instances := by
  rintro ⟨all, _⟩
  obtain ⟨locks, some⟩ := holding
  obtain ⟨row, member⟩ := List.exists_mem_of_ne_nil instances some
  exact ordered.exclusive name other transaction rival differs present against row (locks ▸ member)
    (all ▸ member)

/-- A submission ends: its answer is fair to every receipt that was there, and
what it commits leaves the other submissions sound. -/
theorem finish (ordered : system.Ordered digests instances) {answer : IntakeAnswer}
    (others : ∀ other rival, other ≠ name → system.transactions other = some rival →
      rival.Sound digests instances (system.rows.append answer.created))
    (readable : ∀ receipt ∈ answer.created.receipts,
      (system.rows.append answer.created).toDomain receipt = .ok receipt)
    (distinct : ((system.rows.receipts ++ answer.created.receipts).map (·.sourceEvent)).Nodup)
    (fair : answer.Fair digests system.rows.receipts) :
    (system.finish name answer).Ordered digests instances where
  sound other found present := by
    by_cases same : other = name
    · subst same
      simp [IntakeSystem.finish, IntakeSystem.write] at present
    · simp only [IntakeSystem.finish, IntakeSystem.write, Function.update_of_ne same] at present
      exact others other found same present
  exclusive first second left right differs here there := by
    simp only [IntakeSystem.finish, IntakeSystem.write, Function.update_apply] at here there
    split at here
    · cases here
    · split at there
      · cases there
      · exact ordered.exclusive first second left right differs here there
  readable receipt member := by
    rcases List.mem_append.mp member with earlier | new
    · exact (IntakeRows.keeps_append _).toDomain (ordered.readable receipt earlier)
    · exact readable receipt new
  distinct := distinct
  receipts := by
    simp [IntakeSystem.finish, IntakeRows.append, ordered.receipts]
  works work := by
    simp only [IntakeSystem.finish, IntakeSystem.write, IntakeRows.append, List.mem_append,
      ordered.works work, List.mem_singleton, or_and_right, exists_or, exists_eq_left, or_assoc]
  runs run := by
    simp only [IntakeSystem.finish, IntakeSystem.write, IntakeRows.append, List.mem_append,
      ordered.runs run, List.mem_singleton, or_and_right, exists_or, exists_eq_left, or_assoc]
  fair earlier other later split := by
    rcases List.eq_nil_or_concat later with rfl | ⟨front, last, rfl⟩
    · obtain ⟨rfl, same⟩ := List.append_inj' split rfl
      cases same
      rw [← ordered.receipts]
      exact fair
    · rw [List.concat_eq_append, ← List.cons_append, ← List.append_assoc] at split
      obtain ⟨before, _⟩ := List.append_inj' split rfl
      exact ordered.fair earlier other front before

theorem finish_nothing (ordered : system.Ordered digests instances) {answer : IntakeAnswer}
    (nothing : answer.created = .nothing) (fair : answer.Fair digests system.rows.receipts) :
    (system.finish name answer).Ordered digests instances := by
  refine ordered.finish ?_ ?_ ?_ fair
  · intro other rival _ present
    rw [nothing, IntakeRows.append_nothing]
    exact ordered.sound other rival present
  · simp [nothing, IntakeRows.nothing]
  · simpa [nothing, IntakeRows.nothing] using ordered.distinct

theorem fair_of_refused (ordered : system.Ordered digests instances)
    {transaction : IntakeTransaction}
    (refused : transaction.Refused digests instances system.rows error) :
    (transaction.answer .nothing (.answered (.error error))).Fair digests system.rows.receipts := by
  refine ⟨rfl, fun other member same => ?_⟩
  rcases refused with ⟨receipt, present, key, replayed⟩ | ⟨_, absent⟩
  · have equal : other = receipt :=
      List.inj_on_of_nodup_map ordered.distinct member present (same.trans key.symm)
    exact equal ▸ replayed
  · exact absurd same (absent other member)

theorem next (ordered : system.Ordered digests instances)
    (applied : system.Applies digests instances name after operation) :
      after.Ordered digests instances := by
  cases operation with
  | arrive submission =>
      obtain ⟨_, rfl⟩ := applied
      refine ordered.write ⟨fun _ member => member, by simp [IntakeTransaction.arrive],
        rfl, rfl, rfl⟩ ?_
      simp [IntakeTransaction.arrive]
  | resume input =>
      obtain ⟨transaction, present, free, rfl⟩ := applied
      refine ordered.write ((ordered.sound name transaction present).resume ordered.readable) ?_
      intro other rival differs against row member held
      rcases IntakeTransaction.locks_resume member with before | wanted
      · exact ordered.exclusive name other transaction rival
          (Ne.symm differs) present against row before held
      · exact free row wanted other rival differs against held
  | abandon =>
      obtain ⟨transaction, _, rfl⟩ := applied
      exact ordered.finish_nothing rfl rfl
  | finish =>
      obtain ⟨transaction, present, ended⟩ := applied
      have known := (ordered.sound name transaction present).stage
      cases stage : transaction.stage with
      | raising error =>
          rw [stage] at known ended
          rw [ended]
          exact ordered.finish_nothing rfl (ordered.fair_of_refused known)
      | committing outcome =>
          rw [stage] at known ended
          rw [ended]
          match outcome with
          | .answered (.ok ⟨receipt, .created⟩) =>
              obtain ⟨holding, absent, admitted, readable⟩ := known
              have created : transaction.written.receipts = [receipt] := admitted.receipts
              refine ordered.finish ?_ ?_ ?_ ⟨admitted, absent⟩
              · intro other rival differs against
                exact (ordered.sound other rival against).append
                  (ordered.alone (Ne.symm differs) present against holding)
              · intro new member
                obtain rfl : new = receipt := by
                  simpa [IntakeTransaction.answer, created] using member
                exact readable
              · simp only [IntakeTransaction.answer, created, List.map_append,
                  List.map_cons, List.map_nil]
                refine List.nodup_append'.mpr ⟨ordered.distinct, by simp, ?_⟩
                intro key member same
                obtain ⟨other, present, rfl⟩ := List.mem_map.mp member
                exact absent other present ((List.mem_singleton.mp same).trans admitted.sourceEvent)
          | .answered (.ok ⟨receipt, .replayed⟩) => exact ordered.finish_nothing known.1 known
          | .answered (.error error) =>
              obtain ⟨unwritten, refused⟩ := known
              rw [unwritten]
              exact ordered.finish_nothing rfl (ordered.fair_of_refused refused)
          | .unresolved error => exact ordered.finish_nothing known.1 known
      | _ =>
          rw [stage] at ended
          exact ended.elim
  | admitElsewhere work run =>
      obtain ⟨_, ⟨_, _, free⟩, rfl⟩ := applied
      have same : (system.rows.append ⟨[work], [run], []⟩).receipts = system.rows.receipts :=
        List.append_nil _
      exact {
        sound := fun other transaction present => (ordered.sound other transaction present).insert
          (free other transaction present).1 (free other transaction present).2
        exclusive := ordered.exclusive
        readable := fun receipt member =>
          (IntakeRows.keeps_append _).toDomain (ordered.readable receipt (same ▸ member))
        distinct := same.symm ▸ ordered.distinct
        receipts := same.trans ordered.receipts
        works := fun other => by
          simp only [IntakeRows.append, List.mem_append, ordered.works other]
          exact or_right_comm
        runs := fun other => by
          simp only [IntakeRows.append, List.mem_append, ordered.runs other]
          exact or_right_comm
        fair := ordered.fair }

theorem start (initial : (intakeMachine digests instances).initial system) :
    system.Ordered digests instances := by
  obtain ⟨rows, elsewhere, answers, transactions⟩ := initial
  constructor <;> simp [rows, elsewhere, answers, transactions, IntakeRows.nothing]

theorem reachable (reached : (intakeMachine digests instances).Reachable system) :
    system.Ordered digests instances := by
  obtain ⟨origin, initial, run⟩ := reached
  induction run with
  | refl => exact start initial
  | tail operation _ _ stepped ih =>
      have applied : IntakeSystem.Applies _ digests instances operation.1 _ operation.2 := stepped
      exact ih.next applied

end Ordered

end IntakeSystem

namespace WebhookSubmission

variable {digests : KeyedDigests} {submission : WebhookSubmission} {existing : WebhookReceipt}

theorem replay_same (trigger : existing.triggerId = submission.triggerId)
    (mapper : existing.mapperVersion = submission.mapperVersion)
    (key : existing.digestKeyVersion = (submission.bodyDigest digests).digestKeyVersion)
    (body : existing.bodyDigest = (submission.bodyDigest digests).value) :
    submission.replay digests existing = .ok ⟨existing, .replayed⟩ := by
  simp [replay, classifyExisting, require, trigger, mapper, key, body, bind, Except.bind,
    pure, Except.pure]

theorem replay_differs (differs : existing.triggerId ≠ submission.triggerId ∨
    existing.bodyDigest ≠ (submission.bodyDigest digests).value) :
    ∃ error, submission.replay digests existing = .error error := by
  cases replayed : submission.replay digests existing with
  | error error => exact ⟨error, rfl⟩
  | ok result =>
      simp only [replay, classifyExisting, bind_ok, pure_ok, require_ok] at replayed
      obtain ⟨exact, ⟨_, _, _, _, same⟩, chosen⟩ := replayed
      have inexact : exact = false := by
        rw [← same, Bool.and_eq_false_iff]
        simpa using differs
      rw [inexact] at chosen
      cases chosen

end WebhookSubmission

namespace IntakeAnswer

variable {digests : KeyedDigests} {answer : IntakeAnswer} {known : List WebhookReceipt}
  {receipt : WebhookReceipt}

theorem Fair.created (fair : answer.Fair digests known) :
    (∃ receipt, answer.outcome = .answered (.ok ⟨receipt, .created⟩) ∧
      answer.Admitted digests receipt) ∨
      answer.created = .nothing := by
  unfold Fair at fair
  split at fair
  · next receipt outcome => exact .inl ⟨receipt, outcome, fair.1⟩
  · exact .inr fair.1
  · exact .inr fair.1
  · exact .inr fair.1
  · exact .inr fair

theorem Fair.replayed (fair : answer.Fair digests known) (member : receipt ∈ known)
    (distinct : (known.map (·.sourceEvent)).Nodup)
    (same : receipt.sourceEvent = answer.submission.sourceEvent) :
    answer.created = .nothing ∧
      (answer.outcome = .answered (answer.submission.replay digests receipt) ∨
      answer.outcome = .abandoned ∨ (∃ error, answer.outcome = .unresolved error) ∧
        receipt ∉ answer.arrived) := by
  unfold Fair at fair
  split at fair
  · exact absurd same (fair.2 receipt member)
  · next found outcome =>
      obtain ⟨nothing, present, key, replayed⟩ := fair
      obtain rfl : found = receipt :=
        List.inj_on_of_nodup_map distinct present member (key.trans same.symm)
      exact ⟨nothing, .inl (replayed ▸ outcome)⟩
  · next error outcome => exact ⟨fair.1, .inl (fair.2 receipt member same ▸ outcome)⟩
  · next error outcome =>
      exact ⟨fair.1, .inr (.inr ⟨⟨error, outcome⟩, fun arrived => fair.2 receipt arrived same⟩)⟩
  · next outcome => exact ⟨fair, .inr (.inl outcome)⟩

/-- The rows of an admission: one work item and one run for each binding. -/
structure FansOut (answer : IntakeAnswer) (receipt : WebhookReceipt) : Prop where
  receipts : answer.created.receipts = [receipt]
  sourceEvent : receipt.sourceEvent = answer.submission.sourceEvent
  instances : (receipt.deliveries.map (·.instanceId)).Perm (answer.bindings.map (·.instanceId))
  distinct : (receipt.deliveries.map (·.instanceId)).Nodup
  works : (receipt.deliveries.map fun delivery => (delivery.instanceId, delivery.workItemId)).Perm
    (answer.created.works.map fun work => (work.envelope.instanceId, work.id))
  runs : (receipt.deliveries.map fun delivery => (delivery.workItemId, delivery.runId)).Perm
    (answer.created.runs.map fun run => (run.workItemId, run.id))
  admitted : ∀ work ∈ answer.created.works, work.envelope.source = receipt.source ∧
    work.envelope.eventId = receipt.eventId ∧ work.envelope.triggerId = receipt.triggerId

theorem Admitted.fansOut (admitted : answer.Admitted digests receipt) : answer.FansOut receipt := by
  obtain ⟨received, serves, created, deliveries, works, runs⟩ := admitted.fanOut
  obtain ⟨_, distinct, _⟩ :=
    WebhookReceipt.checkDeliveries_ok.mp (WebhookReceipt.build_ok.mp admitted.built).2.1
  have named : received.map (·.delivery.instanceId) = answer.bindings.map (·.instanceId) :=
    map_eq_of_related serves fun served => congrArg (·.2.2) served.sourceKey
  have event := admitted.sourceEvent
  simp only [WebhookReceipt.sourceEvent, WebhookSubmission.sourceEvent, Prod.mk.injEq] at event
  refine ⟨admitted.receipts, admitted.sourceEvent, ?_, distinct, ?_, ?_, ?_⟩
  · rw [← named]
    simpa [List.map_map, Function.comp_def] using deliveries.map (·.instanceId)
  · rw [works, List.map_map]
    simpa [List.map_map, Function.comp_def, WorkRunReceiptResult.delivery] using
      deliveries.map fun delivery => (delivery.instanceId, delivery.workItemId)
  · have owned : ∀ result ∈ received, result.run.workItemId = result.workItem.id := by
      intro result member
      obtain ⟨binding, _, served⟩ := exists_related serves.flip member
      exact served.run
    have same : received.map (fun result => (result.delivery.workItemId, result.delivery.runId)) =
        received.map fun result => (result.run.workItemId, result.run.id) :=
      List.map_congr_left fun result member => by
        rw [owned result member]
        rfl
    rw [runs, List.map_map]
    have mapped := deliveries.map fun delivery => (delivery.workItemId, delivery.runId)
    rw [List.map_map] at mapped
    exact mapped.trans (List.Perm.of_eq same)
  · intro work member
    rw [works] at member
    obtain ⟨result, listed, rfl⟩ := List.mem_map.mp member
    obtain ⟨binding, _, served⟩ := exists_related serves.flip listed
    have key := served.sourceKey
    simp only [WorkItem.sourceKey, Prod.mk.injEq] at key
    rw [event.1, event.2, admitted.triggerId]
    exact ⟨key.1, key.2.1, served.triggerId (created result listed)⟩

end IntakeAnswer

/-- Whatever submissions interleave, a source event is admitted once and in
full, and every later submission of it is answered by its receipt. -/
theorem webhook_exactly_once {digests : KeyedDigests} {instances : List String}
    {system : IntakeSystem} (reached : (intakeMachine digests instances).Reachable system) :
    (system.rows.receipts.map (·.sourceEvent)).Nodup ∧
      (∀ receipt ∈ system.rows.receipts, ∃ answer ∈ system.answers,
        answer.outcome = .answered (.ok ⟨receipt, .created⟩) ∧ answer.FansOut receipt) ∧
      (∀ answer ∈ system.answers, (∃ receipt, answer.outcome = .answered (.ok ⟨receipt, .created⟩) ∧
        answer.FansOut receipt) ∨ answer.created = .nothing) ∧
      (∀ work, work ∈ system.rows.works ↔ work ∈ system.elsewhere.works ∨
        ∃ answer ∈ system.answers, work ∈ answer.created.works) ∧
      (∀ run, run ∈ system.rows.runs ↔ run ∈ system.elsewhere.runs ∨
        ∃ answer ∈ system.answers, run ∈ answer.created.runs) ∧
      ∀ earlier answer later receipt, system.answers = earlier ++ answer :: later →
        receipt ∈ earlier.flatMap (·.created.receipts) →
        receipt.sourceEvent = answer.submission.sourceEvent →
        answer.created = .nothing ∧
          (answer.outcome = .answered (answer.submission.replay digests receipt) ∨
            answer.outcome = .abandoned ∨
            (∃ error, answer.outcome = .unresolved error) ∧ receipt ∉ answer.arrived) ∧
          (receipt.triggerId = answer.submission.triggerId →
            receipt.mapperVersion = answer.submission.mapperVersion →
            receipt.digestKeyVersion = (answer.submission.bodyDigest digests).digestKeyVersion →
            receipt.bodyDigest = (answer.submission.bodyDigest digests).value →
            answer.submission.replay digests receipt = .ok ⟨receipt, .replayed⟩) ∧
          (receipt.triggerId ≠ answer.submission.triggerId ∨
              receipt.bodyDigest ≠ (answer.submission.bodyDigest digests).value →
            ∃ error, answer.submission.replay digests receipt = .error error) := by
  have ordered := IntakeSystem.Ordered.reachable reached
  have fair : ∀ answer ∈ system.answers, ∃ known, answer.Fair digests known := by
    intro answer member
    obtain ⟨earlier, later, split⟩ := List.append_of_mem member
    exact ⟨_, ordered.fair earlier answer later split⟩
  refine ⟨ordered.distinct, ?_, ?_, ordered.works, ordered.runs, ?_⟩
  · intro receipt member
    rw [ordered.receipts, List.mem_flatMap] at member
    obtain ⟨answer, listed, written⟩ := member
    obtain ⟨known, promised⟩ := fair answer listed
    rcases promised.created with ⟨created, outcome, admitted⟩ | nothing
    · rw [admitted.receipts, List.mem_singleton] at written
      exact ⟨answer, listed, written ▸ outcome, written ▸ admitted.fansOut⟩
    · rw [nothing] at written
      cases written
  · intro answer member
    obtain ⟨known, promised⟩ := fair answer member
    rcases promised.created with ⟨receipt, outcome, admitted⟩ | nothing
    · exact .inl ⟨receipt, outcome, admitted.fansOut⟩
    · exact .inr nothing
  · intro earlier answer later receipt split member same
    have distinct : ((earlier.flatMap (·.created.receipts)).map (·.sourceEvent)).Nodup := by
      have whole := ordered.distinct
      rw [ordered.receipts, split, List.flatMap_append, List.map_append] at whole
      exact (List.nodup_append'.mp whole).1
    obtain ⟨nothing, outcome⟩ :=
      (ordered.fair earlier answer later split).replayed member distinct same
    exact ⟨nothing, outcome, WebhookSubmission.replay_same, WebhookSubmission.replay_differs⟩

namespace Resubmission

def digests : KeyedDigests where
  body rawBody key := {
    value := String.ofList (List.replicate 64 (if rawBody = [1] then '1' else '0'))
    digestKeyVersion := webhookDigestKeyVersionPrefix ++ key }
  admission _ key :=
    { inputDigest := "input", admissionDigest := "admission", digestKeyVersion := key }
  projection work _ := work.id

def signed (rawBody : List UInt8) : WebhookSubmission where
  source := "crm"
  triggerId := "lead-created"
  rawBody
  mapperVersion := "mapper-v1"
  mapped := { eventId := "event-1", inputPayload := "null" }
  digestKey := String.ofList (List.replicate 64 'a')
  currentCatalogHash := "catalog-1"
  receivedAt := 5

def target : WebhookTarget where
  workflowId := "workflow-1"
  configurationRevision := 1
  mode := .mockExecution
  validator envelope := .ok {
    envelope
    snapshot := {
      catalogHash := "catalog-1"
      instanceId := envelope.instanceId
      templateId := "template-1"
      instanceConfigurationRevision := envelope.configurationRevision
      triggerId := envelope.triggerId
      workflowId := envelope.workflowId
      inputSchemaId := "schema-1"
      inputSchemaHash := "schema-hash" }
    redactedInputProjection := "null"
    inputClassification := .internal }

/-- What the statement of a number gets: every statement draws its own identifier. -/
def input (number : Nat) : IntakeInput where
  target := .ok (some target)
  id := String.ofList (List.replicate (number + 1) 'i')
  now := 6

def instances : List String := ["instance-1", "instance-2"]

variable (system : IntakeSystem) (submission : WebhookSubmission)

/-- A submission after a number of statements that nothing else interrupts. -/
def carriedOut : Nat → IntakeTransaction
  | 0 => .arrive submission system.rows.receipts
  | count + 1 => (carriedOut count).resume digests (system.rows.append (carriedOut count).written)
      (input count) instances

def answer (count : Nat) (outcome : IntakeOutcome) : IntakeAnswer :=
  (carriedOut system submission count).answer (carriedOut system submission count).written outcome

variable {system submission}

theorem carriedOut_run (idle : system.transactions = fun _ => none) (count : Nat) :
    (intakeMachine digests instances).Run system
      (system.write "intake" (some (carriedOut system submission count))) := by
  induction count with
  | zero => exact .tail ("intake", .arrive submission) .refl trivial ⟨by rw [idle], rfl⟩
  | succ count ih =>
      refine ih.tail ("intake", .resume (input count)) trivial
        ⟨carriedOut system submission count, by simp [IntakeSystem.write], ?_, ?_⟩
      · intro row _ other transaction differs present
        simp [IntakeSystem.write, idle, differs] at present
      · simp [IntakeSystem.write, carriedOut]

theorem answered_run (idle : system.transactions = fun _ => none) {count : Nat}
    (ends : (carriedOut system submission count).stage = .committing outcome) :
    (intakeMachine digests instances).Run system
      (system.finish "intake" (answer system submission count outcome)) := by
  have carried : (intakeMachine digests instances).Run system
      (system.write "intake" (some (carriedOut system submission count))) :=
        carriedOut_run idle count
  refine carried.tail ("intake", .finish) trivial
    ⟨carriedOut system submission count, by simp [IntakeSystem.write], ?_⟩
  rw [ends]
  simp [IntakeSystem.finish, IntakeSystem.write, answer]

def unanswered : IntakeSystem := ⟨.nothing, .nothing, [], fun _ => none⟩

def receipt : WebhookReceipt where
  id := (input 14).id
  source := "crm"
  eventId := "event-1"
  triggerId := "lead-created"
  bodyDigest := String.ofList (List.replicate 64 '1')
  digestKeyVersion := webhookDigestKeyVersionPrefix ++ String.ofList (List.replicate 64 'a')
  mapperVersion := "mapper-v1"
  receivedAt := 5
  deliveries := [⟨"instance-1", (input 9).id, (input 10).id⟩,
    ⟨"instance-2", (input 11).id, (input 12).id⟩]

def created : IntakeAnswer :=
  answer unanswered (signed [1]) 15 (.answered (.ok ⟨receipt, .created⟩))

def admitted : IntakeSystem := unanswered.finish "intake" created

def replayed : IntakeAnswer := answer admitted (signed [1]) 1 (.answered (.ok ⟨receipt, .replayed⟩))

def again : IntakeSystem := admitted.finish "intake" replayed

def refused : IntakeAnswer :=
  answer again (signed [2]) 1 (.answered (.error WebhookSubmission.idempotencyConflict))

def answered : IntakeSystem := again.finish "intake" refused

theorem answered_reached : (intakeMachine digests instances).Reachable answered := by
  have started : (intakeMachine digests instances).Reachable unanswered :=
    .start ⟨rfl, rfl, rfl, fun _ => rfl⟩
  have idle (system : IntakeSystem) (given : IntakeAnswer)
    (closed : system.transactions = fun _ => none) :
      (system.finish "intake" given).transactions = fun _ => none := by
    simp [IntakeSystem.finish, IntakeSystem.write, closed]
  have first : admitted.transactions = fun _ => none := idle unanswered created rfl
  have second : again.transactions = fun _ => none := idle admitted replayed first
  have created_run : (intakeMachine digests instances).Run unanswered admitted :=
    answered_run rfl rfl
  have replayed_run : (intakeMachine digests instances).Run admitted again := answered_run first rfl
  have refused_run : (intakeMachine digests instances).Run again answered := answered_run second rfl
  exact started.continue (created_run.trans (replayed_run.trans refused_run))

end Resubmission

/-- A submission for two instances, the same one again, and another body for its event. -/
theorem webhook_exactly_once_resubmitted :
    Resubmission.answered.answers =
        [Resubmission.created, Resubmission.replayed, Resubmission.refused] ∧
      Resubmission.created.FansOut Resubmission.receipt ∧
      Resubmission.replayed.created = .nothing ∧ Resubmission.refused.created = .nothing ∧
      ∃ error, Resubmission.refused.submission.replay Resubmission.digests Resubmission.receipt =
        .error error := by
  obtain ⟨_, fanned, _, _, _, resubmitted⟩ := webhook_exactly_once Resubmission.answered_reached
  have again := resubmitted [Resubmission.created] Resubmission.replayed [Resubmission.refused]
    Resubmission.receipt rfl (List.mem_singleton.mpr rfl) rfl
  have other := resubmitted [Resubmission.created, Resubmission.replayed] Resubmission.refused []
    Resubmission.receipt rfl (List.mem_singleton.mpr rfl) rfl
  refine ⟨rfl, ?_, again.1, other.1, other.2.2.2 (.inr (by decide))⟩
  obtain ⟨answer, listed, outcome, complete⟩ :=
    fanned Resubmission.receipt (List.mem_singleton.mpr rfl)
  have named : answer = Resubmission.created ∨ answer = Resubmission.replayed ∨
      answer = Resubmission.refused := by
    simpa [Resubmission.answered, Resubmission.again, Resubmission.admitted,
      Resubmission.unanswered, IntakeSystem.finish, IntakeSystem.write] using listed
  rcases named with rfl | rfl | rfl
  · exact complete
  · cases outcome
  · cases outcome

end MarketingAgents
