import MarketingAgents.Domain.Schedules

namespace MarketingAgents

/-! # Occurrences and their plans

What a claimed due instant turns into, and the policy intent behind it.
-/

def scheduleRecurrenceVersion : String := "five-field-cron-adr0008-v1"

def maxCoalescedMissedOccurrences : Nat := maxRecordedRecurrenceResolutions

/-- One action for an occurrence that is already claimed. -/
inductive ScheduleDisposition where
  | onTime
  | skip
  | runOnce
deriving DecidableEq

structure ScheduleOccurrencePlan where
  scheduleId : String
  scheduledForUtc : Time
  recurrenceVersion : String
  disposition : ScheduleDisposition
  nextRunAtUtc : Time
  firstMissedAtUtc : Option Time := none
  lastMissedAtUtc : Option Time := none
  missedCount : Option Nat := none
  scheduledRecurrence : Option RecurrenceResult := none
  nextRecurrence : Option RecurrenceResult := none
  recurrenceResolutions : Option (List RecurrenceResolution) := none
deriving DecidableEq

structure ScheduleOccurrence where
  id : String
  scheduleId : String
  scheduledForUtc : Time
  scheduledLocal : String
  timezone : String
  timezoneFold : Nat
  recurrenceVersion : String
  state : OccurrenceState
  workItemId : Option String := none
  runId : Option String := none
  misfirePolicyApplied : Option MisfirePolicy := none
  misfireGraceSeconds : Option Nat := none
  misfireEvaluatedAtUtc : Option Time := none
  firstMissedAtUtc : Option Time := none
  lastMissedAtUtc : Option Time := none
  missedCount : Option Nat := none
  scheduledRecurrence : Option RecurrenceResult := none
  nextRecurrence : Option RecurrenceResult := none
  recurrenceResolutions : Option (List RecurrenceResolution) := none
deriving DecidableEq

section

variable (zones : ZoneSupport)

namespace ScheduleOccurrencePlan

variable (plan : ScheduleOccurrencePlan)

def validateMissed (first last : Time) (count : Nat) : Except Rejection Unit := do
  require (first = plan.scheduledForUtc)
    "ValueError" "misfire range must begin at the original persisted due time"
  require (first ≤ last) "ValueError" "misfire range must not be reversed"
  require (last < plan.nextRunAtUtc)
    "ValueError" "misfire plan next scheduled time must follow the missed range"
  require (1 ≤ count ∧ count ≤ maxCoalescedMissedOccurrences)
    "ValueError" "misfire missed count must be positive and safely bounded"
  require (count = 1 ↔ last = first)
    "ValueError" "misfire missed count must agree with its range endpoints"

def validate : Except Rejection Unit := do
  requireId plan.scheduleId "misfire plan schedule ID"
  requireId plan.recurrenceVersion "misfire plan recurrence version"
  requireText zones.strip plan.recurrenceVersion "misfire plan recurrence version" 64
  require (plan.scheduledForUtc < plan.nextRunAtUtc)
    "ValueError" "misfire plan next scheduled time must follow the original due time"
  RecurrenceRange.validate {
    scheduledForUtc := plan.scheduledForUtc
    scheduledRecurrence := plan.scheduledRecurrence
    nextRecurrence := plan.nextRecurrence
    recurrenceResolutions := plan.recurrenceResolutions
    lastMissedAtUtc := plan.lastMissedAtUtc
    nextRunAtUtc := some plan.nextRunAtUtc }
  if plan.disposition = .onTime then
    require (plan.firstMissedAtUtc = none ∧ plan.lastMissedAtUtc = none ∧ plan.missedCount = none)
      "ValueError" "on-time schedule plans must not contain missed-range facts"
  else
    match plan.firstMissedAtUtc, plan.lastMissedAtUtc, plan.missedCount with
    | some first, some last, some count => plan.validateMissed first last count
    | _, _, _ => reject "ValueError" "misfire schedule plans require a complete missed range"

/-- Whether the transaction of the occurrence admits a work item with its run. -/
def admitsWork : Bool := plan.disposition = .onTime || plan.disposition = .runOnce

/-- The plan without its recurrence evidence. -/
def withoutEvidence : ScheduleOccurrencePlan :=
  { plan with scheduledRecurrence := none, nextRecurrence := none, recurrenceResolutions := none }

end ScheduleOccurrencePlan

namespace ScheduleOccurrence

variable (occurrenceId : String → Time → String → String) (occurrence : ScheduleOccurrence)

def validateMisfire (policy : MisfirePolicy) (grace : Nat) (evaluated first last : Time)
    (count : Nat) : Except Rejection Unit := do
  require (grace ≤ maxMisfireGraceSeconds)
    "ValueError" "occurrence misfire grace must be a safely bounded integer"
  require (first = occurrence.scheduledForUtc)
    "ValueError" "occurrence missed range must begin at its persisted due instant"
  require (first ≤ last ∧ last ≤ evaluated)
    "ValueError" "occurrence missed range must be ordered through evaluation time"
  require (seconds grace < evaluated - occurrence.scheduledForUtc)
    "ValueError" "occurrence misfire facts must exceed the configured grace"
  require (1 ≤ count ∧ count ≤ maxCoalescedMissedOccurrences)
    "ValueError" "occurrence missed count must be positive and safely bounded"
  require (count = 1 ↔ last = first)
    "ValueError" "occurrence missed count must agree with its range endpoints"
  require (policy = .skip ↔ occurrence.state = .skipped)
    "ValueError" "occurrence skip policy and state must agree"
  require (occurrence.state ≠ .due) "ValueError" "evaluated misfire occurrences cannot remain due"

def validateLinks : Except Rejection Unit := do
  require (occurrence.workItemId.isSome = occurrence.runId.isSome)
    "ValueError" "occurrence WorkItem and Run links must be set together"
  requireOptional (requireId · "occurrence work item ID") occurrence.workItemId
  requireOptional (requireId · "occurrence run ID") occurrence.runId
  require (occurrence.state ∈ [.enqueued, .completed] ↔ occurrence.workItemId.isSome)
    "ValueError" "occurrence state and WorkItem/Run links disagree"

def validate : Except Rejection Unit := do
  requireId occurrence.id "occurrence ID"
  requireId occurrence.scheduleId "schedule ID"
  requireIanaTimezone zones occurrence.timezone "occurrence timezone"
  require ((occurrence.scheduledLocal, occurrence.timezoneFold) =
      zones.localSnapshot occurrence.scheduledForUtc occurrence.timezone)
    "ValueError" "occurrence local representation and fold must match its UTC instant"
  requireId occurrence.recurrenceVersion "occurrence recurrence version"
  requireText zones.strip occurrence.recurrenceVersion "occurrence recurrence version" 64
  require (occurrence.id =
      occurrenceId occurrence.scheduleId occurrence.scheduledForUtc occurrence.recurrenceVersion)
    "ValueError" "occurrence ID does not match its immutable identity facts"
  occurrence.validateLinks
  RecurrenceRange.validate {
    scheduledForUtc := occurrence.scheduledForUtc
    scheduledRecurrence := occurrence.scheduledRecurrence
    nextRecurrence := occurrence.nextRecurrence
    recurrenceResolutions := occurrence.recurrenceResolutions
    lastMissedAtUtc := occurrence.lastMissedAtUtc
    timezone := some occurrence.timezone
    allowPendingOnly := true }
  match occurrence.misfirePolicyApplied, occurrence.misfireGraceSeconds,
    occurrence.misfireEvaluatedAtUtc,
      occurrence.firstMissedAtUtc, occurrence.lastMissedAtUtc, occurrence.missedCount with
  | none, none, none, none, none, none =>
      require (occurrence.state ≠ .skipped) "ValueError"
        "skipped occurrences require complete misfire facts"
  | some policy, some grace, some evaluated, some first, some last, some count =>
      occurrence.validateMisfire policy grace evaluated first last count
  | _, _, _, _, _, _ =>
      reject "ValueError" "occurrence misfire facts must be all present or all absent"

/-- The facts that two records of one occurrence have to share. -/
def identityFacts : ScheduleOccurrence :=
  { occurrence with state := .due, workItemId := none, runId := none }

end ScheduleOccurrence

end

end MarketingAgents
