import MarketingAgents.Services.WebhookAdmission

namespace MarketingAgents

open Library

/-! # What an open submission knows and owns -/

/-- The work and the run that answer for one binding of a submission. -/
structure WorkRunReceiptResult.Serves (submission : WebhookSubmission)
    (result : WorkRunReceiptResult) (binding : WebhookAdmissionBinding) : Prop where
  sourceKey : result.workItem.sourceKey = (submission.source, submission.mapped.eventId,
    binding.instanceId)
  run : result.run.workItemId = result.workItem.id
  triggerId : result.disposition = .created → result.workItem.envelope.triggerId =
    submission.triggerId

namespace WebhookAdmissionBinding

/-- A binding carries the source and the trigger that it was resolved for. -/
def For (submission : WebhookSubmission) (binding : WebhookAdmissionBinding) : Prop :=
  binding.source = submission.source ∧ binding.triggerId = submission.triggerId

end WebhookAdmissionBinding

namespace WorkRunReceiptResult

def created (results : List WorkRunReceiptResult) : List WorkRunReceiptResult :=
  results.filter fun result => result.disposition = .created

theorem created_concat {results : List WorkRunReceiptResult} {result : WorkRunReceiptResult} :
    created (results ++ [result]) = created results ++ if result.disposition =
      .created then [result] else [] := by
  rw [created, List.filter_append, List.filter_singleton, created]
  simp

/-- The rows that a transaction wrote are those of the results that it created. -/
structure Collected (submission : WebhookSubmission) (bindings : List WebhookAdmissionBinding)
    (written : IntakeRows) (received : List WorkRunReceiptResult)
    (pending : List ValidatedIncomingWork) : Prop where
  works : written.works = (created received).map (·.workItem)
  runs : written.runs = (created received).map (·.run)
  receipts : written.receipts = []
  served : ∃ done left, bindings = done ++ left ∧ List.Forall₂ (Serves submission) received done ∧
    pending.map (·.envelope) = left.map (·.envelope submission.mapped)

end WorkRunReceiptResult

namespace IntakeAnswer

/-- A created receipt with one new work item and one new run for every binding. -/
structure Admitted (digests : KeyedDigests) (answer : IntakeAnswer)
    (receipt : WebhookReceipt) : Prop where
  receipts : answer.created.receipts = [receipt]
  sourceEvent : receipt.sourceEvent = answer.submission.sourceEvent
  triggerId : receipt.triggerId = answer.submission.triggerId
  mapperVersion : receipt.mapperVersion = answer.submission.mapperVersion
  bodyDigest : receipt.bodyDigest = (answer.submission.bodyDigest digests).value
  digestKeyVersion : receipt.digestKeyVersion =
    (answer.submission.bodyDigest digests).digestKeyVersion
  built : receipt.build = .ok receipt
  fanOut : ∃ received : List WorkRunReceiptResult,
    List.Forall₂ (WorkRunReceiptResult.Serves answer.submission) received answer.bindings ∧
      (∀ result ∈ received, result.disposition = .created) ∧
      receipt.deliveries.Perm (received.map (·.delivery)) ∧
      answer.created.works = received.map (·.workItem) ∧ answer.created.runs = received.map (·.run)

/-- What an answer promises, given the receipts that were committed before it. -/
def Fair (digests : KeyedDigests) (known : List WebhookReceipt) (answer : IntakeAnswer) : Prop :=
  match answer.outcome with
  | .answered (.ok ⟨receipt, .created⟩) => answer.Admitted digests receipt ∧
      ∀ other ∈ known, other.sourceEvent ≠ answer.submission.sourceEvent
  | .answered (.ok ⟨receipt, .replayed⟩) => answer.created = .nothing ∧ receipt ∈ known ∧
      receipt.sourceEvent = answer.submission.sourceEvent ∧
      answer.submission.replay digests receipt = .ok ⟨receipt, .replayed⟩
  | .answered (.error error) => answer.created = .nothing ∧
      ∀ other ∈ known, other.sourceEvent = answer.submission.sourceEvent →
        answer.submission.replay digests other = .error error
  | .unresolved _ => answer.created = .nothing ∧
      ∀ other ∈ answer.arrived, other.sourceEvent ≠ answer.submission.sourceEvent
  | .abandoned => answer.created = .nothing

end IntakeAnswer

namespace IntakeTransaction

variable (digests : KeyedDigests) (instances : List String) (rows : IntakeRows)
  (transaction : IntakeTransaction)

/-- All configuration rows are locked. -/
def Holding : Prop := transaction.locks = instances ∧ instances ≠ []

/-- No receipt is committed for the source event. -/
def Absent : Prop := ∀ receipt ∈ rows.receipts,
    receipt.sourceEvent ≠ transaction.submission.sourceEvent

/-- No receipt was committed for the source event when the submission came in. -/
def Unseen : Prop := ∀ receipt ∈ transaction.arrived,
    receipt.sourceEvent ≠ transaction.submission.sourceEvent

/-- A refusal comes from the receipt of the source event, or from a submission
that holds every lock while there is none. -/
def Refused (error : Rejection) : Prop :=
  (∃ receipt ∈ rows.receipts, receipt.sourceEvent = transaction.submission.sourceEvent ∧
      transaction.submission.replay digests receipt = .error error) ∨
    (transaction.Holding instances ∧ transaction.Absent rows)

def OutcomeSound : IntakeOutcome → Prop
  | .answered (.ok ⟨receipt, .created⟩) => transaction.Holding instances ∧ transaction.Absent rows ∧
      (transaction.answer transaction.written (.answered (.ok ⟨receipt, .created⟩))).Admitted
        digests receipt ∧
      (rows.append transaction.written).toDomain receipt = .ok receipt
  | .answered (.ok ⟨receipt, .replayed⟩) =>
    transaction.written = .nothing ∧ receipt ∈ rows.receipts ∧
      receipt.sourceEvent = transaction.submission.sourceEvent ∧
      transaction.submission.replay digests receipt = .ok ⟨receipt, .replayed⟩
  | .answered (.error error) => transaction.written = .nothing ∧
      transaction.Refused digests instances rows error
  | .unresolved _ => transaction.written = .nothing ∧ transaction.Unseen
  | .abandoned => False

def StageSound : IntakeStage → Prop
  | .reading => transaction.written = .nothing ∧ transaction.locks = [] ∧ transaction.bindings = []
  | .resolving pending =>
    transaction.written = .nothing ∧ transaction.locks ++ pending = instances ∧
      transaction.Unseen ∧ (transaction.bindings ≠ [] → transaction.locks ≠ [])
  | .rereading => transaction.written = .nothing ∧ transaction.Holding instances
  | .validating =>
    transaction.written = .nothing ∧ transaction.Holding instances ∧ transaction.Absent rows
  | .checking _ validated => transaction.written = .nothing ∧ transaction.Holding instances ∧
      transaction.Absent rows ∧ validated.map (·.envelope) =
        transaction.bindings.map (·.envelope transaction.submission.mapped)
  | .admitting pending received => transaction.Holding instances ∧ transaction.Absent rows ∧
      WorkRunReceiptResult.Collected transaction.submission transaction.bindings transaction.written
        received pending
  | .receiving incoming admitted pending received =>
    transaction.Holding instances ∧ transaction.Absent rows ∧
      admitted.1.sourceKey = (incoming.envelope.source, incoming.envelope.eventId,
        incoming.envelope.instanceId) ∧
      (admitted.2 = .created → admitted.1.envelope = incoming.envelope) ∧
      ∃ works, transaction.written.works = works ++
        (if admitted.2 = .created then [admitted.1] else []) ∧
        WorkRunReceiptResult.Collected transaction.submission transaction.bindings
          { transaction.written with works } received (incoming :: pending)
  | .recording received => transaction.Holding instances ∧ transaction.Absent rows ∧
      WorkRunReceiptResult.Collected transaction.submission transaction.bindings
        transaction.written received []
  | .committing outcome => transaction.OutcomeSound digests instances rows outcome
  | .raising error => transaction.Refused digests instances rows error

structure Sound : Prop where
  arrived : ∀ receipt ∈ transaction.arrived, receipt ∈ rows.receipts
  bound : ∀ binding ∈ transaction.bindings, binding.For transaction.submission
  stage : transaction.StageSound digests instances rows transaction.stage

end IntakeTransaction

theorem IntakeRows.getBySourceEvent_cases {rows : IntakeRows}
    (readable : ∀ receipt ∈ rows.receipts, rows.toDomain receipt = .ok receipt) :
    (rows.getBySourceEvent source eventId = .ok none ∧
        ∀ receipt ∈ rows.receipts, receipt.sourceEvent ≠ (source, eventId)) ∨
      ∃ existing ∈ rows.receipts, existing.sourceEvent = (source, eventId) ∧
        rows.getBySourceEvent source eventId = .ok (some existing) := by
  unfold getBySourceEvent
  cases found : rows.receipts.find? fun receipt => receipt.sourceEvent = (source, eventId) with
  | none =>
      refine .inl ⟨rfl, fun receipt member => ?_⟩
      simpa using List.find?_eq_none.mp found receipt member
  | some existing =>
      have member := List.mem_of_find?_eq_some found
      refine .inr ⟨existing, member, by simpa using List.find?_some found, ?_⟩
      simp only [readable existing member]
      rfl

theorem WebhookAdmissionBinding.mapM_validate {bindings : List WebhookAdmissionBinding}
    (accepted : bindings.mapM (·.validate mapped) = .ok validated) :
    validated.map (·.envelope) = bindings.map (·.envelope mapped) := by
  induction bindings generalizing validated with
  | nil =>
      cases accepted
      rfl
  | cons binding rest ih =>
      simp only [List.mapM_cons, bind_ok, pure_ok] at accepted
      obtain ⟨first, issued, others, remaining, rfl⟩ := accepted
      simp only [WebhookAdmissionBinding.validate, bind_ok, pure_ok] at issued
      obtain ⟨_, _, rfl⟩ := issued
      rw [List.map_cons, List.map_cons, ih remaining]

theorem IntakeRows.workBySourceKey_some {rows : IntakeRows}
    (found : rows.workBySourceKey source eventId instanceId = some work) :
    work.sourceKey = (source, eventId, instanceId) := by
  simpa using List.find?_some found

theorem WebhookSubmission.admitInUow_ok {digests : KeyedDigests} {submission : WebhookSubmission}
    {rows : IntakeRows} {candidate work : WorkItem} {disposition : AdmissionDisposition}
    (admitted : submission.admitInUow digests rows candidate = .ok (work, disposition)) :
    work.sourceKey = candidate.sourceKey ∧ (disposition = .created → work = candidate) := by
  unfold WebhookSubmission.admitInUow at admitted
  split at admitted
  · simp only [bind_ok, pure_ok, requireSome_ok, Prod.mk.injEq] at admitted
    obtain ⟨existing, found, _, _, rfl, rfl⟩ := admitted
    exact ⟨IntakeRows.workBySourceKey_some found, by simp⟩
  · simp only [pure_ok, Prod.mk.injEq] at admitted
    obtain ⟨rfl, rfl⟩ := admitted
    exact ⟨rfl, fun _ => rfl⟩

theorem receiptResult_ok (accepted : receiptResult incoming admitted received = .ok result) :
    result = ⟨admitted.1, received.1, admitted.2⟩ ∧ admitted.2 = received.2 ∧
      received.1.workItemId = admitted.1.id := by
  simp only [receiptResult, bind_ok, pure_ok, require_ok] at accepted
  obtain ⟨_, same, _, correlated, rfl⟩ := accepted
  exact ⟨rfl, same, correlated.1⟩

theorem IntakeRows.addOrGet_ok {rows : IntakeRows} {candidate stored : WebhookReceipt}
    {inserted : Bool} (added : rows.addOrGet candidate = .ok (stored, inserted)) :
    (inserted = true ∧ rows.toDomain candidate = .ok stored) ∨
      ∃ receipt ∈ rows.receipts, receipt.sourceEvent = candidate.sourceEvent := by
  unfold IntakeRows.addOrGet at added
  split at added
  · simp only [bind_ok, pure_ok, requireSome_ok] at added
    obtain ⟨found, read, existing, rfl, _⟩ := added
    unfold getBySourceEvent at read
    split at read
    · cases read
    · next record present =>
        have same := List.find?_some present
        exact .inr ⟨record, List.mem_of_find?_eq_some present, of_decide_eq_true same⟩
  · simp only [bind_ok, pure_ok, Prod.mk.injEq] at added
    obtain ⟨_, read, rfl, rfl⟩ := added
    exact .inl ⟨rfl, read⟩

theorem requireInsertOutcome_ok
    (accepted : requireInsertOutcome candidate stored received true = .ok ()) :
    (∀ result ∈ received, result.disposition = .created) ∧ stored = candidate := by
  simp only [requireInsertOutcome, bind_ok, if_true, require_ok] at accepted
  obtain ⟨_, created, same⟩ := accepted
  exact ⟨by simpa using created, same⟩

namespace IntakeTransaction

variable {digests : KeyedDigests} {instances : List String} {rows : IntakeRows}
variable {transaction : IntakeTransaction}

theorem Sound.move (sound : transaction.Sound digests instances rows) (stage : IntakeStage)
    (moved : transaction.StageSound digests instances rows stage) :
    (transaction.move stage).Sound digests instances rows where
  arrived := sound.arrived
  bound := sound.bound
  stage := by
    cases stage <;> exact moved

theorem Sound.raise (sound : transaction.Sound digests instances rows)
    (refused : transaction.Refused digests instances rows error) :
    (transaction.move (.raising error)).Sound digests instances rows :=
  sound.move (.raising error) refused

theorem Sound.commit (sound : transaction.Sound digests instances rows)
    (decided : transaction.OutcomeSound digests instances rows outcome) :
    (transaction.move (.committing outcome)).Sound digests instances rows :=
  sound.move (.committing outcome) decided

theorem Sound.readExisting (sound : transaction.Sound digests instances rows)
    (readable : ∀ receipt ∈ rows.receipts, rows.toDomain receipt = .ok receipt)
    (unwritten : transaction.written = .nothing)
    (onward : transaction.Absent rows → transaction.StageSound digests instances rows absent) :
    (transaction.readExisting digests rows absent).Sound digests instances rows := by
  unfold IntakeTransaction.readExisting
  rcases rows.getBySourceEvent_cases readable with ⟨read, none⟩ | ⟨existing, member, same, read⟩
  · rw [read]
    exact sound.move absent (onward none)
  · rw [read]
    have replay : transaction.submission.replay digests existing =
        transaction.submission.classifyExisting digests existing >>= fun exact =>
          if exact then .ok ⟨existing, .replayed⟩
              else .error WebhookSubmission.idempotencyConflict := by
      unfold WebhookSubmission.replay
      congr 1
    cases classified : transaction.submission.classifyExisting digests existing with
    | error error =>
        rw [classified] at replay
        simp only [classified]
        exact sound.raise (.inl ⟨existing, member, same, replay⟩)
    | ok exact =>
        rw [classified] at replay
        cases exact with
        | true =>
            simp only [classified]
            exact sound.commit ⟨unwritten, member, same, replay⟩
        | false =>
            simp only [classified]
            exact sound.commit ⟨unwritten, .inl ⟨existing, member, same, replay⟩⟩

theorem Sound.resolveRow {instanceId : String} {pending : List String}
    (sound : transaction.Sound digests instances rows) (unwritten : transaction.written = .nothing)
    (ordered : transaction.locks ++ instanceId :: pending = instances)
    (unseen : transaction.Unseen) :
    (transaction.resolveRow input instanceId pending).Sound digests instances rows := by
  have further : (transaction.locks ++ [instanceId]) ++ pending = instances := by
    rw [List.append_assoc, List.singleton_append, ordered]
  unfold IntakeTransaction.resolveRow
  cases input.target with
  | error error => exact ⟨sound.arrived, sound.bound, unwritten, unseen⟩
  | ok target =>
      cases target with
      | none =>
          exact ⟨sound.arrived, sound.bound, unwritten, further, unseen,
            fun _ => by simp [IntakeTransaction.move]⟩
      | some target =>
          refine ⟨sound.arrived, ?_, unwritten, further, unseen, fun _ => by simp⟩
          intro binding member
          rcases List.mem_append.mp member with earlier | new
          · exact sound.bound binding earlier
          · cases List.mem_singleton.mp new
            exact ⟨rfl, rfl⟩

theorem Sound.validateAll (sound : transaction.Sound digests instances rows)
    (unwritten : transaction.written = .nothing) (holding : transaction.Holding instances)
    (absent : transaction.Absent rows) : transaction.validateAll.Sound digests instances rows := by
  unfold IntakeTransaction.validateAll
  split
  · exact sound.raise (.inr ⟨holding, absent⟩)
  · cases validated : transaction.bindings.mapM (·.validate transaction.submission.mapped) with
    | error error =>
        exact sound.commit ⟨unwritten, .inr ⟨holding, absent⟩⟩
    | ok works =>
        exact sound.move (.checking _ works)
          ⟨unwritten, holding, absent, WebhookAdmissionBinding.mapM_validate validated⟩

theorem Sound.admitNext {incoming : ValidatedIncomingWork} {pending : List ValidatedIncomingWork}
    (sound : transaction.Sound digests instances rows) (holding : transaction.Holding instances)
    (absent : transaction.Absent rows)
    (collected : WorkRunReceiptResult.Collected transaction.submission transaction.bindings
      transaction.written received (incoming :: pending)) :
    (transaction.admitNext digests view input incoming pending received).Sound digests
      instances rows := by
  unfold IntakeTransaction.admitNext
  split
  · exact sound.raise (.inr ⟨holding, absent⟩)
  · next work admitted =>
      simp only [admission, bind_ok] at admitted
      obtain ⟨_, _, inserted⟩ := admitted
      obtain ⟨key, fresh⟩ := WebhookSubmission.admitInUow_ok inserted
      refine ⟨sound.arrived, sound.bound, holding, absent, key, ?_, transaction.written.works,
        by simp, collected⟩
      intro created
      rw [fresh created]
      rfl
  · next work admitted =>
      simp only [admission, bind_ok] at admitted
      obtain ⟨_, _, found⟩ := admitted
      obtain ⟨key, _⟩ := WebhookSubmission.admitInUow_ok found
      refine sound.move (.receiving incoming (work, .replayed) pending received)
        ⟨holding, absent, key, by simp, ?_⟩
      exact ⟨transaction.written.works, by simp, collected⟩

theorem served_next {submission : WebhookSubmission} {bindings : List WebhookAdmissionBinding}
    {incoming : ValidatedIncomingWork} {pending : List ValidatedIncomingWork}
    {work : WorkItem} {run : PrimaryRun} {disposition : AdmissionDisposition}
    (bound : ∀ binding ∈ bindings, binding.For submission)
    (served : ∃ done left, bindings = done ++ left ∧
      List.Forall₂ (WorkRunReceiptResult.Serves submission) received done ∧
      (incoming :: pending).map (·.envelope) = left.map (·.envelope submission.mapped))
    (key : work.sourceKey = (incoming.envelope.source, incoming.envelope.eventId,
      incoming.envelope.instanceId))
    (fresh : disposition = .created → work.envelope = incoming.envelope)
    (owned : run.workItemId = work.id) :
    ∃ done left, bindings = done ++ left ∧
      List.Forall₂ (WorkRunReceiptResult.Serves submission)
        (received ++ [⟨work, run, disposition⟩]) done ∧
      pending.map (·.envelope) = left.map (·.envelope submission.mapped) := by
  obtain ⟨done, left, rfl, serves, envelopes⟩ := served
  cases left with
  | nil => simp at envelopes
  | cons binding rest =>
      simp only [List.map_cons, List.cons.injEq] at envelopes
      obtain ⟨envelope, remaining⟩ := envelopes
      obtain ⟨source, trigger⟩ := bound binding (by simp)
      refine ⟨done ++ [binding], rest, by simp, ?_, remaining⟩
      refine List.rel_append serves (.cons ⟨?_, owned, ?_⟩ .nil)
      · rw [key, envelope]
        exact congrArg (·, submission.mapped.eventId, binding.instanceId) source
      · intro created
        rw [fresh created, envelope]
        exact trigger

theorem Sound.receiveNext {incoming : ValidatedIncomingWork}
    {admitted : WorkItem × AdmissionDisposition} {pending : List ValidatedIncomingWork}
    {received : List WorkRunReceiptResult} {works : List WorkItem}
    (sound : transaction.Sound digests instances rows) (holding : transaction.Holding instances)
    (absent : transaction.Absent rows)
    (key : admitted.1.sourceKey =
      (incoming.envelope.source, incoming.envelope.eventId, incoming.envelope.instanceId))
    (fresh : admitted.2 = .created → admitted.1.envelope = incoming.envelope)
    (inserted : transaction.written.works = works ++
      (if admitted.2 = .created then [admitted.1] else []))
    (collected : WorkRunReceiptResult.Collected transaction.submission transaction.bindings
      { transaction.written with works } received (incoming :: pending)) :
    (transaction.receiveNext view input incoming admitted pending received).Sound digests
      instances rows := by
  obtain ⟨before, ran, receipts, served⟩ := collected
  unfold IntakeTransaction.receiveNext
  split
  · exact sound.raise (.inr ⟨holding, absent⟩)
  · next work run accepted =>
      simp only [reception, bind_ok] at accepted
      obtain ⟨_, _, correlated⟩ := accepted
      obtain ⟨same, _, owned⟩ := receiptResult_ok correlated
      obtain ⟨rfl, rfl, created⟩ := WorkRunReceiptResult.mk.inj same
      rw [← created, if_pos rfl] at inserted
      refine ⟨sound.arrived, sound.bound, holding, absent, ?_, ?_, receipts,
        served_next sound.bound served key (fun _ => fresh created.symm) owned⟩
      · rw [WorkRunReceiptResult.created_concat, if_pos rfl, List.map_append, ← before]
        exact inserted
      · rw [WorkRunReceiptResult.created_concat, if_pos rfl, List.map_append, ← ran]
        rfl
  · next result differs accepted =>
      simp only [reception, bind_ok] at accepted
      obtain ⟨_, _, correlated⟩ := accepted
      obtain ⟨rfl, _, owned⟩ := receiptResult_ok correlated
      have replayed : admitted.2 ≠ .created := fun created => by
        simp [created] at differs
      rw [if_neg replayed, List.append_nil] at inserted
      refine sound.move (.admitting pending (received ++ [_])) ⟨holding, absent, ?_, ?_, receipts,
        served_next sound.bound served key fresh owned⟩
      · rw [WorkRunReceiptResult.created_concat, if_neg replayed, List.append_nil, ← before]
        exact inserted
      · rw [WorkRunReceiptResult.created_concat, if_neg replayed, List.append_nil]
        exact ran

theorem Sound.record
    (sound : transaction.Sound digests instances rows) (holding : transaction.Holding instances)
    (absent : transaction.Absent rows)
    (collected : WorkRunReceiptResult.Collected transaction.submission transaction.bindings
      transaction.written received []) :
    (transaction.record digests (rows.append transaction.written) input received).Sound digests
      instances rows := by
  obtain ⟨works, runs, receipts, done, left, whole, serves, none⟩ := collected
  have served : List.Forall₂ (WorkRunReceiptResult.Serves transaction.submission) received
      transaction.bindings := by
    have complete : left = [] := List.map_eq_nil_iff.mp none.symm
    rw [whole, complete, List.append_nil]
    exact serves
  unfold IntakeTransaction.record
  split
  · exact sound.raise (.inr ⟨holding, absent⟩)
  · next stored recorded =>
      simp only [recording, bind_ok, pure_ok, Prod.exists, Prod.mk.injEq] at recorded
      obtain ⟨candidate, built, _, _, added, _, accepted, rfl, rfl⟩ := recorded
      obtain ⟨created, rfl⟩ := requireInsertOutcome_ok accepted
      have all : WorkRunReceiptResult.created received = received := by
        simpa [WorkRunReceiptResult.created, List.filter_eq_self] using created
      rw [all] at works runs
      obtain ⟨_, _, same⟩ := WebhookReceipt.build_ok.mp built
      rcases IntakeRows.addOrGet_ok added with ⟨_, readable⟩ | ⟨receipt, member, known⟩
      · refine ⟨sound.arrived, sound.bound, holding, absent,
          ⟨?_, ?_, ?_, ?_, ?_, ?_, WebhookReceipt.build_built built,
          received, served, created, ?_, works, runs⟩, readable⟩
        · simp [answer, receipts]
        all_goals rw [← same]
        all_goals first
          | rfl
          | exact List.perm_insertionSort _ _
      · rw [IntakeRows.append, receipts, List.append_nil] at member
        refine absurd ?_ (absent receipt member)
        rw [known, ← same]
        rfl
  · next stored recorded =>
      simp only [recording, bind_ok, pure_ok, Prod.exists, Prod.mk.injEq] at recorded
      obtain ⟨candidate, built, _, _, added, _, accepted, rfl, rfl⟩ := recorded
      rcases IntakeRows.addOrGet_ok added with ⟨impossible, _⟩ | ⟨receipt, member, known⟩
      · cases impossible
      · rw [IntakeRows.append, receipts, List.append_nil] at member
        refine absurd ?_ (absent receipt member)
        rw [known, ← (WebhookReceipt.build_ok.mp built).2.2]
        rfl

/-- Every statement of a submission keeps what it knows and owns. -/
theorem Sound.resume (sound : transaction.Sound digests instances rows)
    (readable : ∀ receipt ∈ rows.receipts, rows.toDomain receipt = .ok receipt) :
    (transaction.resume digests (rows.append transaction.written) input instances).Sound digests
      instances rows := by
  have known := sound.stage
  unfold IntakeTransaction.resume
  cases stage : transaction.stage with
  | reading =>
      rw [stage] at known
      obtain ⟨unwritten, unlocked, unbound⟩ := known
      rw [unwritten, IntakeRows.append_nothing]
      refine sound.readExisting readable unwritten fun absent =>
        ⟨unwritten, by simp [unlocked], ?_, by simp [unbound]⟩
      exact fun receipt member => absent receipt (sound.arrived receipt member)
  | resolving pending =>
      rw [stage] at known
      obtain ⟨unwritten, ordered, unseen, bound⟩ := known
      cases pending with
      | nil =>
          rw [List.append_nil] at ordered
          dsimp only
          split
          · exact sound.commit ⟨unwritten, unseen⟩
          · next bindings =>
              exact sound.move .rereading ⟨unwritten, ordered, ordered ▸ bound bindings⟩
      | cons instanceId pending => exact sound.resolveRow unwritten ordered unseen
  | rereading =>
      rw [stage] at known
      obtain ⟨unwritten, holding⟩ := known
      rw [unwritten, IntakeRows.append_nothing]
      exact sound.readExisting readable unwritten fun absent => ⟨unwritten, holding, absent⟩
  | validating =>
      rw [stage] at known
      exact sound.validateAll known.1 known.2.1 known.2.2
  | checking pending validated =>
      rw [stage] at known
      obtain ⟨unwritten, holding, absent, envelopes⟩ := known
      cases pending with
      | nil =>
          refine sound.move (.admitting validated []) ⟨holding, absent, ?_⟩
          rw [unwritten]
          exact ⟨rfl, rfl, rfl, [], _, rfl, .nil, envelopes⟩
      | cons binding pending =>
          simp only [checkAbsent]
          split
          · exact sound.raise (.inr ⟨holding, absent⟩)
          · exact sound.move (.checking pending validated) ⟨unwritten, holding, absent, envelopes⟩
  | admitting pending received =>
      rw [stage] at known
      obtain ⟨holding, absent, collected⟩ := known
      cases pending with
      | nil => exact sound.move (.recording received) ⟨holding, absent, collected⟩
      | cons incoming pending => exact sound.admitNext holding absent collected
  | receiving incoming admitted pending received =>
      rw [stage] at known
      obtain ⟨holding, absent, key, fresh, works, inserted, collected⟩ := known
      exact sound.receiveNext holding absent key fresh inserted collected
  | recording received =>
      rw [stage] at known
      exact sound.record known.1 known.2.1 known.2.2
  | committing outcome => exact sound
  | raising error => exact sound

end IntakeTransaction

end MarketingAgents
