import MarketingAgents.Library.Machine
import MarketingAgents.Services.WebhookIntake

namespace MarketingAgents

open Library

/-! # Concurrent webhook submissions

Submissions interleave statement by statement.  A configuration row that one of
them locked is held until it ends.  Other services admit work in transactions of
their own.
-/

/-- What a submission was answered, and the rows that its transaction committed. -/
structure IntakeAnswer where
  submission : WebhookSubmission
  arrived : List WebhookReceipt
  bindings : List WebhookAdmissionBinding
  created : IntakeRows
  outcome : IntakeOutcome

structure IntakeSystem where
  rows : IntakeRows
  elsewhere : IntakeRows
  answers : List IntakeAnswer
  transactions : String → Option IntakeTransaction

inductive IntakeOperation where
  | arrive (submission : WebhookSubmission)
  | resume (input : IntakeInput)
  | abandon
  | finish
  | admitElsewhere (work : WorkItem) (run : PrimaryRun)

def IntakeRows.nothing : IntakeRows := ⟨[], [], []⟩

def IntakeTransaction.arrive (submission : WebhookSubmission) (arrived : List WebhookReceipt) :
    IntakeTransaction where
  submission := submission
  arrived := arrived
  locks := []
  bindings := []
  written := .nothing
  stage := .reading

def IntakeTransaction.answer (transaction : IntakeTransaction) (created : IntakeRows)
    (outcome : IntakeOutcome) : IntakeAnswer where
  submission := transaction.submission
  arrived := transaction.arrived
  bindings := transaction.bindings
  created := created
  outcome := outcome

namespace IntakeSystem

variable (system : IntakeSystem)

def write (name : String) (transaction : Option IntakeTransaction) : IntakeSystem :=
  { system with transactions := Function.update system.transactions name transaction }

/-- End a transaction with its answer and the rows that it commits. -/
def finish (name : String) (answer : IntakeAnswer) : IntakeSystem :=
  { system.write name none with
    rows := system.rows.append answer.created
    answers := system.answers ++ [answer] }

/-- No other submission holds the configuration row. -/
def Free (name : String) (row : String) : Prop :=
  ∀ other transaction, other ≠ name → system.transactions other = some transaction →
    row ∉ transaction.locks

/-- Rows that another service may insert next to everything that is written. -/
def Insertable (work : WorkItem) (run : PrimaryRun) : Prop :=
  system.rows.conflictsWork work = false ∧ system.rows.conflictsRun run = false ∧
    ∀ name transaction, system.transactions name = some transaction →
      transaction.written.conflictsWork work = false ∧ transaction.written.conflictsRun run = false

/-- One statement of a submission, its end, or the work of another service. -/
def Applies (digests : KeyedDigests) (instances : List String) (name : String)
    (after : IntakeSystem) : IntakeOperation → Prop
  | .arrive submission => system.transactions name = none ∧
      after = system.write name (some (.arrive submission system.rows.receipts))
  | .resume input => ∃ transaction, system.transactions name = some transaction ∧
      (∀ row, transaction.wants = some row → system.Free name row) ∧
      after = system.write name (some (transaction.resume digests
        (system.rows.append transaction.written) input instances))
  | .abandon => ∃ transaction, system.transactions name = some transaction ∧
      after = system.finish name (transaction.answer .nothing .abandoned)
  | .finish => ∃ transaction, system.transactions name = some transaction ∧
      match transaction.stage with
      | .committing outcome =>
        after = system.finish name (transaction.answer transaction.written outcome)
      | .raising error =>
        after = system.finish name (transaction.answer .nothing (.answered (.error error)))
      | _ => False
  | .admitElsewhere work run => run.workItemId = work.id ∧ system.Insertable work run ∧
      after = { system with
        rows := system.rows.append ⟨[work], [run], []⟩
        elsewhere := system.elsewhere.append ⟨[work], [run], []⟩ }

end IntakeSystem

/-- Submissions to any number of sources, from empty tables on.  All of them
lock the configuration rows of the catalog's instances. -/
def intakeMachine (digests : KeyedDigests) (instances : List String) :
    Machine IntakeSystem (String × IntakeOperation) where
  initial system := system.rows = .nothing ∧ system.elsewhere = .nothing ∧ system.answers = [] ∧
    ∀ name, system.transactions name = none
  step system operation after := system.Applies digests instances operation.1 after operation.2

namespace IntakeRows

variable {rows later : IntakeRows} {receipt : WebhookReceipt}

/-- Every row that was found under its identifier is still found. -/
def Keeps (rows later : IntakeRows) : Prop :=
  (∀ id work, rows.work? id = some work → later.work? id = some work) ∧
    ∀ id run, rows.run? id = some run → later.run? id = some run

theorem keeps_append (added : IntakeRows) : rows.Keeps (rows.append added) := by
  constructor
  · intro id work found
    simp only [work?, append, List.find?_append, Option.or_eq_some_iff] at found ⊢
    exact .inl found
  · intro id run found
    simp only [run?, append, List.find?_append, Option.or_eq_some_iff] at found ⊢
    exact .inl found

@[simp] theorem append_nothing : rows.append .nothing = rows := by
  simp [append, nothing]

theorem keeps_insert {written : IntakeRows}
    (works : written.conflictsWork work = false) (runs : written.conflictsRun run = false) :
    (rows.append written).Keeps ((rows.append ⟨[work], [run], []⟩).append written) := by
  simp only [conflictsWork, List.any_eq_false, Bool.or_eq_true, decide_eq_true_eq, not_or] at works
  simp only [conflictsRun, List.any_eq_false, Bool.or_eq_true, decide_eq_true_eq, not_or] at runs
  constructor
  · intro id found same
    simp only [work?, append, List.find?_append, Option.or_eq_some_iff] at same ⊢
    rcases same with same | ⟨absent, same⟩
    · exact .inl (.inl same)
    · refine .inr ⟨?_, same⟩
      have differs : found.id ≠ work.id := (works found (List.mem_of_find?_eq_some same)).1
      have named := List.find?_some same
      simp only [decide_eq_true_eq] at named
      subst named
      rw [absent, Option.none_or, List.find?_eq_none]
      simp [Ne.symm differs]
  · intro id found same
    simp only [run?, append, List.find?_append, Option.or_eq_some_iff] at same ⊢
    rcases same with same | ⟨absent, same⟩
    · exact .inl (.inl same)
    · refine .inr ⟨?_, same⟩
      have differs : found.id ≠ run.id := (runs found (List.mem_of_find?_eq_some same)).1
      have named := List.find?_some same
      simp only [decide_eq_true_eq] at named
      subst named
      rw [absent, Option.none_or, List.find?_eq_none]
      simp [Ne.symm differs]

theorem Keeps.joined (keeps : rows.Keeps later) (present : rows.joined delivery = some found) :
    later.joined delivery = some found := by
  simp only [IntakeRows.joined, bind, Option.bind_eq_some_iff] at present ⊢
  obtain ⟨work, worked, run, ran, same⟩ := present
  exact ⟨work, keeps.1 _ _ worked, run, keeps.2 _ _ ran, same⟩

theorem joined_fst (present : rows.joined delivery = some found) : found.1 = delivery := by
  simp only [joined, bind, Option.bind_eq_some_iff, pure, Option.some.injEq] at present
  obtain ⟨_, _, _, _, rfl⟩ := present
  rfl

theorem filterMap_joined {deliveries : List WebhookReceiptDelivery}
    (present : ∀ delivery ∈ deliveries, (rows.joined delivery).isSome) :
    (deliveries.filterMap rows.joined).map Prod.fst = deliveries := by
  induction deliveries with
  | nil => rfl
  | cons delivery rest ih =>
      obtain ⟨found, joined⟩ := Option.isSome_iff_exists.mp (present delivery (by simp))
      rw [List.filterMap_cons_some joined, List.map_cons, joined_fst joined,
        ih fun other member => present other (by simp [member])]

theorem toDomain_ok : rows.toDomain receipt = .ok receipt ↔ receipt.build = .ok receipt ∧
    ∀ delivery ∈ receipt.deliveries, ∃ work run, rows.joined delivery = some (delivery, work, run) ∧
      linked receipt delivery work run = true := by
  constructor
  · intro read
    simp only [toDomain, bind_ok, require_ok] at read
    obtain ⟨_, _, _, agree, built⟩ := read
    -- A delivery without its rows would be missing from what was read.
    have complete : ∀ delivery ∈ receipt.deliveries, (rows.joined delivery).isSome = true := by
      have sorted := congrArg (·.deliveries.length) (WebhookReceipt.build_ok.mp built).2.2
      simp only [List.length_insertionSort, List.length_map] at sorted
      exact List.filterMap_length_eq_length.mp sorted
    have whole := filterMap_joined complete
    rw [whole] at built
    refine ⟨built, fun delivery member => ?_⟩
    obtain ⟨⟨named, work, run⟩, present⟩ := Option.isSome_iff_exists.mp (complete delivery member)
    obtain rfl : named = delivery := joined_fst present
    have listed := List.mem_filterMap.mpr ⟨named, member, present⟩
    exact ⟨work, run, present, List.all_eq_true.mp agree (named, work, run) listed⟩
  · rintro ⟨built, present⟩
    have whole : (receipt.deliveries.filterMap rows.joined).map Prod.fst = receipt.deliveries := by
      refine filterMap_joined fun delivery member => ?_
      obtain ⟨work, run, joined, _⟩ := present delivery member
      rw [joined, Option.isSome_some]
    have nonempty : receipt.deliveries.filterMap rows.joined ≠ [] := by
      intro empty
      rw [empty] at whole
      have bounded :=
        (WebhookReceipt.checkDeliveries_ok.mp (WebhookReceipt.build_ok.mp built).2.1).1.1
      simp [← whole] at bounded
    simp only [toDomain, bind_ok, require_ok]
    refine ⟨(), nonempty, (), ?_, ?_⟩
    · rw [List.all_eq_true]
      rintro found member
      obtain ⟨delivery, listed, joined⟩ := List.mem_filterMap.mp member
      obtain ⟨work, run, same, agree⟩ := present delivery listed
      cases joined.symm.trans same
      exact agree
    · rw [whole]
      exact built

theorem Keeps.toDomain (keeps : rows.Keeps later) (read : rows.toDomain receipt = .ok receipt) :
    later.toDomain receipt = .ok receipt := by
  obtain ⟨built, present⟩ := toDomain_ok.mp read
  refine toDomain_ok.mpr ⟨built, fun delivery member => ?_⟩
  obtain ⟨work, run, joined, agree⟩ := present delivery member
  exact ⟨work, run, keeps.joined joined, agree⟩

end IntakeRows

end MarketingAgents
