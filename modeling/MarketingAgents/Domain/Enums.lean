import Mathlib.Data.Nat.Basic

namespace MarketingAgents

/-- Instants in microseconds, the resolution of the stored UTC timestamps. -/
abbrev Time := Nat

def seconds (count : Nat) : Time := count * 1000000

inductive Effect where
  | read
  | write
deriving DecidableEq, Repr

inductive WorkMode where
  | dryRun
  | mockExecution
deriving DecidableEq, Repr

inductive TriggerKind where
  | manual
  | webhook
  | schedule
deriving DecidableEq, Repr

/-- What becomes of an occurrence that is claimed after its grace. -/
inductive MisfirePolicy where
  | skip
  | runOnce
deriving DecidableEq, Repr

inductive OccurrenceState where
  | due
  | claimed
  | enqueued
  | skipped
  | completed
deriving DecidableEq, Repr

inductive RunState where
  | received
  | validated
  | planned
  | awaitingApproval
  | executing
  | completed
  | failed
  | rejected
  | cancelled
deriving DecidableEq, Repr

inductive StepState where
  | pending
  | ready
  | awaitingApproval
  | executing
  | succeeded
  | failed
  | rejected
  | cancelled
  | skipped
deriving DecidableEq, Repr

inductive ExternalActionState where
  | proposed
  | awaitingApproval
  | approved
  | dispatchReserved
  | dispatching
  | succeeded
  | failed
  | rejected
  | cancelled
  | superseded
  | outcomeUnknown
deriving DecidableEq, Repr

inductive ApprovalStatus where
  | pending
  | approved
  | rejected
  | expired
  | consumed
  | superseded
deriving DecidableEq, Repr

def RunState.terminal : RunState → Bool
  | completed | failed | rejected | cancelled => true
  | received | validated | planned | awaitingApproval | executing => false

def StepState.terminal : StepState → Bool
  | succeeded | failed | rejected | cancelled | skipped => true
  | pending | ready | awaitingApproval | executing => false

def ExternalActionState.terminal : ExternalActionState → Bool
  | succeeded | failed | rejected | cancelled | superseded | outcomeUnknown => true
  | proposed | awaitingApproval | approved | dispatchReserved | dispatching => false

def WorkMode.value : WorkMode → String
  | dryRun => "dry_run"
  | mockExecution => "mock_execution"

def WorkMode.ofValue? (value : String) : Option WorkMode :=
  [WorkMode.dryRun, .mockExecution].find? fun mode => mode.value = value

def TriggerKind.value : TriggerKind → String
  | manual => "manual"
  | webhook => "webhook"
  | schedule => "schedule"

def TriggerKind.ofValue? (value : String) : Option TriggerKind :=
  [TriggerKind.manual, .webhook, .schedule].find? fun kind => kind.value = value

def MisfirePolicy.value : MisfirePolicy → String
  | skip => "skip"
  | runOnce => "run_once"

def MisfirePolicy.ofValue? (value : String) : Option MisfirePolicy :=
  [MisfirePolicy.skip, .runOnce].find? fun policy => policy.value = value

def ExternalActionState.value : ExternalActionState → String
  | proposed => "proposed"
  | awaitingApproval => "awaiting_approval"
  | approved => "approved"
  | dispatchReserved => "dispatch_reserved"
  | dispatching => "dispatching"
  | succeeded => "succeeded"
  | failed => "failed"
  | rejected => "rejected"
  | cancelled => "cancelled"
  | superseded => "superseded"
  | outcomeUnknown => "outcome_unknown"

def ApprovalStatus.value : ApprovalStatus → String
  | pending => "pending"
  | approved => "approved"
  | rejected => "rejected"
  | expired => "expired"
  | consumed => "consumed"
  | superseded => "superseded"

end MarketingAgents
