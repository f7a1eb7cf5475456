import MarketingAgents.Domain.Enums
import MarketingAgents.Domain.Validation

namespace MarketingAgents

/-! # Schedules

A schedule with its next due instant, the lease that one scheduler takes on that
instant, the occurrence that it leaves behind and the policy plan between them.
-/

/-- What schedules use of the language and of its zone database. -/
structure ZoneSupport where
  strip : String → String
  words : String → Nat
  knownTimezone : String → Bool
  minuteAligned : String → Bool
  localSnapshot : Time → String → String × Nat

/-- A nonempty text without outer blanks. -/
def requireText (strip : String → String) (value fieldName : String) (maximum : Nat) :
    Except Rejection Unit :=
  require (value = strip value ∧ value ≠ "" ∧ value.toList.length ≤ maximum)
    "ValueError" (fieldName ++ " must be nonempty, trimmed, and bounded")

def requireIanaTimezone (zones : ZoneSupport) (value fieldName : String) :
    Except Rejection Unit := do
  requireText zones.strip value fieldName 100
  require (zones.knownTimezone value) "ValueError" (fieldName ++ " must be a valid IANA timezone")

def maxRecordedRecurrenceResolutions : Nat := 10000

/-- Why a nonexistent wall-clock candidate advanced to a valid instant. -/
structure RecurrenceResolution where
  nominalLocal : String
  timezone : String
  resolvedAtUtc : Time
deriving DecidableEq

/-- One calculated selection. -/
structure RecurrenceResult where
  scheduledForUtc : Time
  resolution : Option RecurrenceResolution
deriving DecidableEq

section

variable (zones : ZoneSupport)

def RecurrenceResolution.validate (resolution : RecurrenceResolution) : Except Rejection Unit := do
  require (zones.minuteAligned resolution.nominalLocal)
    "ValueError" "nominal local time must be canonical and minute-aligned"
  requireIanaTimezone zones resolution.timezone "recurrence resolution timezone"

def RecurrenceResult.validate (result : RecurrenceResult) : Except Rejection Unit :=
  requireOptional (fun resolution => do
      resolution.validate zones
      require (resolution.resolvedAtUtc = result.scheduledForUtc)
        "ValueError" "recurrence resolution must identify the selected UTC time")
    result.resolution

end

def validateRecurrenceResolutions (values : List RecurrenceResolution) : Except Rejection Unit := do
  require (values.length ≤ maxRecordedRecurrenceResolutions)
    "ValueError" "recorded recurrence resolutions must be a bounded tuple"
  require ((values.map (·.resolvedAtUtc)).Pairwise (· < ·))
    "ValueError" "recorded recurrence resolutions must be ordered and unique"

/-- The evidence of a processed range with the values it has to agree with. -/
structure RecurrenceRange where
  scheduledForUtc : Time
  scheduledRecurrence : Option RecurrenceResult
  nextRecurrence : Option RecurrenceResult
  recurrenceResolutions : Option (List RecurrenceResolution)
  lastMissedAtUtc : Option Time := none
  nextRunAtUtc : Option Time := none
  timezone : Option String := none
  allowPendingOnly : Bool := false

namespace RecurrenceRange

variable (range : RecurrenceRange)

def validateScheduled (selected : RecurrenceResult) : Except Rejection Unit := do
  require (selected.scheduledForUtc = range.scheduledForUtc)
    "ValueError" "scheduled recurrence selection must match the original due time"
  require (∀ timezone ∈ range.timezone, ∀ resolution ∈ selected.resolution,
    resolution.timezone = timezone)
    "ValueError" "scheduled recurrence selection must preserve its original timezone"

def validateProcessed (next : RecurrenceResult) (resolutions : List RecurrenceResolution) :
    Except Rejection Unit := do
  validateRecurrenceResolutions resolutions
  let last := range.lastMissedAtUtc.getD range.scheduledForUtc
  require (last < next.scheduledForUtc)
    "ValueError" "next recurrence selection must follow the processed range"
  require (∀ instant ∈ range.nextRunAtUtc, next.scheduledForUtc = instant)
    "ValueError" "next recurrence selection must match the next UTC projection"
  require (∀ resolution ∈ resolutions,
      range.scheduledForUtc ≤ resolution.resolvedAtUtc ∧ resolution.resolvedAtUtc ≤ last)
    "ValueError" "recorded recurrence resolution is outside the processed range"
  require (resolutions.filter (fun resolution => resolution.resolvedAtUtc = range.scheduledForUtc) =
      (range.scheduledRecurrence.bind (·.resolution)).toList)
    "ValueError" "recorded due resolution must preserve the exact pending selection"
  let zones : List String := (resolutions ++ next.resolution.toList).map (·.timezone)
  require (∀ left ∈ zones, ∀ right ∈ zones, left = right)
    "ValueError" "recorded recurrence resolutions must preserve their original timezone"
  require (∀ timezone ∈ range.timezone, ∀ zone ∈ zones, zone = timezone)
    "ValueError" "recorded recurrence resolutions must preserve their original timezone"

/-- Older records carry no evidence at all; a pending occurrence carries the
evidence of its own selection only. -/
def validate : Except Rejection Unit :=
  match range.scheduledRecurrence, range.nextRecurrence, range.recurrenceResolutions with
  | none, none, none => .ok ()
  | scheduled, next, resolutions => do
      requireOptional range.validateScheduled scheduled
      if scheduled.isSome && range.allowPendingOnly && next.isNone && resolutions.isNone then
        return ()
      match next, resolutions with
      | some next, some resolutions => range.validateProcessed next resolutions
      | _, _ =>
          reject "ValueError"
            "recorded recurrence range requires its next selection and resolutions"

end RecurrenceRange

def maxMisfireGraceSeconds : Nat := 86400

structure Schedule where
  id : String
  triggerId : String
  instanceId : String
  workflowId : String
  cron : String
  timezone : String
  nextRunAtUtc : Time
  misfirePolicy : MisfirePolicy
  misfireGraceSeconds : Nat
  enabled : Bool
  recurrenceVersion : String
  version : Nat := 1
  lastScheduledAtUtc : Option Time := none
  configurationRevision : Option Nat := none
  nextRecurrence : Option RecurrenceResult := none
deriving DecidableEq

/-- One fenced lease over the exact due instant of a schedule. -/
structure ScheduleClaim where
  scheduleId : String
  scheduledForUtc : Time
  leaseOwner : String
  claimedAtUtc : Time
  leaseExpiresAtUtc : Time
  recurrenceVersion : String
  version : Nat
deriving DecidableEq

section

variable (zones : ZoneSupport)

def Schedule.validate (schedule : Schedule) : Except Rejection Unit := do
  requireId schedule.id "id"
  requireId schedule.triggerId "trigger_id"
  requireId schedule.instanceId "instance_id"
  requireId schedule.workflowId "workflow_id"
  requireId schedule.recurrenceVersion "recurrence_version"
  requireText zones.strip schedule.recurrenceVersion "schedule recurrence version" 64
  requireText zones.strip schedule.cron "schedule cron" 100
  require (zones.words schedule.cron = 5) "ValueError"
    "schedule cron must contain exactly five fields"
  requireIanaTimezone zones schedule.timezone "schedule timezone"
  requireOptional (fun recurrence => do
      recurrence.validate zones
      require (recurrence.scheduledForUtc = schedule.nextRunAtUtc)
        "ValueError" "next recurrence selection must match its UTC projection"
      require (∀ resolution ∈ recurrence.resolution, resolution.timezone = schedule.timezone)
        "ValueError" "next recurrence selection must preserve its original timezone")
    schedule.nextRecurrence
  require (schedule.misfireGraceSeconds ≤ maxMisfireGraceSeconds)
    "ValueError" "schedule misfire grace must be an integer from zero through one day"
  require (1 ≤ schedule.version) "ValueError" "schedule version must be positive"
  require (∀ revision ∈ schedule.configurationRevision, 1 ≤ revision)
    "ValueError" "schedule configuration revision must be positive"
  require (∀ last ∈ schedule.lastScheduledAtUtc, last < schedule.nextRunAtUtc)
    "ValueError" "last scheduled UTC time must precede the next run"

def ScheduleClaim.validate (claim : ScheduleClaim) : Except Rejection Unit := do
  requireId claim.scheduleId "claim schedule ID"
  requireId claim.leaseOwner "claim lease owner"
  requireId claim.recurrenceVersion "claim recurrence version"
  requireText zones.strip claim.recurrenceVersion "claim recurrence version" 64
  require (claim.scheduledForUtc ≤ claim.claimedAtUtc)
    "ValueError" "claim scheduled time must be due at claim time"
  require (claim.claimedAtUtc < claim.leaseExpiresAtUtc)
    "ValueError" "claim lease expiry must follow claim time"
  require (2 ≤ claim.version) "ValueError" "claim version must reflect one successful claim"

/-- A changed copy of a schedule, which checks itself again. -/
def Schedule.replace (schedule : Schedule) : Except Rejection Schedule := do
  schedule.validate zones
  return schedule

theorem Schedule.replace_ok {schedule result : Schedule} :
    schedule.replace zones = .ok result ↔ schedule.validate zones = .ok () ∧ result = schedule := by
  simp only [Schedule.replace, bind_ok, pure_ok]
  exact ⟨fun ⟨_, valid, same⟩ => ⟨valid, same.symm⟩, fun ⟨valid, same⟩ => ⟨(), valid, same.symm⟩⟩

end

end MarketingAgents
