import MarketingAgents.Services.ServiceRuns

namespace MarketingAgents

open Library

/-! # Units of work that overlap

A unit of work reads rows that another one may change before it commits.  What
it can still commit is up to the database and to the fences of its updates, so
that the rule of it is a parameter.
-/

/-- A transaction with the rows that it has read. -/
structure UnitOfWork where
  transaction : ServiceTransaction
  read : Database

/-- What a database lets a unit of work commit to the rows as they stand. -/
abbrev CommitRule := UnitOfWork → Database → Database → Prop

/-- Every interleaving of units of work on one run. -/
def unitOfWorkMachine (commits : CommitRule) : Machine Database UnitOfWork where
  initial := Received
  step db work after := commits work db after

/-- A unit of work is isolated if it can only commit what its transaction commits
when it reads the rows as they stand. -/
def UnitOfWork.Isolated (commits : CommitRule) (db : Database) (work : UnitOfWork) : Prop :=
  ∀ after, commits work db after → work.transaction.Applies db after

/-- Units of work run READ COMMITTED, and each update is fenced by the row that it
writes.  A repeated READ reservation writes neither the run nor its step, so that
it may rest on a run and steps from before another transaction closed them. -/
inductive ReadCommitted : CommitRule where
  | current {transaction : ServiceTransaction} {read db after : Database}
      (applied : transaction.Applies db after) : ReadCommitted ⟨transaction, read⟩ db after
  | repeated {adapter : ReadAdapter} {command : ControlledReadCommand} {attemptId : String}
      {reservedAt : Time} {read db reserved : Database} {reservation : ReadReservation}
      (accepted : ControlledReadExecutor.reserve adapter
        { db with run := read.run, steps := read.steps }
        command attemptId reservedAt = .ok (reservation, reserved))
      (unwritten : reserved.run = read.run ∧ reserved.steps = read.steps) :
      ReadCommitted ⟨.reserveRead adapter command attemptId reservedAt, read⟩ db
        { reserved with run := db.run, steps := db.steps }

section

variable {commits : CommitRule} {allowed : Database → ServiceTransaction → Prop}
  {origin db : Database}

theorem isolated_run (run : (unitOfWorkMachine commits).RunWhere
      (fun db work => allowed db work.transaction ∧ work.Isolated commits db) origin db) :
    serviceMachine.RunWhere allowed origin db := by
  induction run with
  | refl => exact .refl
  | tail work _ permitted stepped ih =>
      exact .tail work.transaction ih permitted.1 (permitted.2 _ stepped)

theorem isolated_reachable (reached : (unitOfWorkMachine commits).ReachableWhere
      (fun db work => allowed db work.transaction ∧ work.Isolated commits db) db) :
    serviceMachine.ReachableWhere allowed db := by
  obtain ⟨origin, received, run⟩ := reached
  exact ⟨origin, received, isolated_run run⟩

theorem ReadCommitted.isolated {work : UnitOfWork} (run : work.read.run = db.run)
    (steps : work.read.steps = db.steps) : work.Isolated ReadCommitted db := by
  intro after committed
  cases committed with
  | current applied => exact applied
  | repeated accepted unwritten =>
      rename_i read reserved _
      have same : ({ reserved with run := db.run, steps := db.steps } : Database) = reserved := by
        rw [← run, ← steps, ← unwritten.1, ← unwritten.2]
      have whole : ({ db with run := read.run, steps := read.steps } : Database) = db := by
        rw [run, steps]
      rw [whole] at accepted
      rw [same]
      exact ⟨_, accepted⟩

theorem serial_reachable (reached : serviceMachine.ReachableWhere allowed db) :
    (unitOfWorkMachine ReadCommitted).ReachableWhere
      (fun db work => allowed db work.transaction ∧ work.Isolated ReadCommitted db) db := by
  obtain ⟨origin, received, run⟩ := reached
  refine ⟨origin, received, ?_⟩
  induction run with
  | refl => exact .refl
  | @tail state after transaction _ permitted stepped ih =>
      exact .tail ⟨transaction, state⟩ ih ⟨permitted, ReadCommitted.isolated rfl rfl⟩
        (.current stepped)

end

end MarketingAgents
