import MarketingAgents.Domain.ScheduleOccurrences

namespace MarketingAgents

/-! # Schedule rows

Every method selects the row, decides, and then updates it under a condition.
Another transaction may commit between the two statements, so a method takes
the row that it selected and the row that its update finds.
-/

structure ScheduleLease where
  owner : String
  claimedAtUtc : Time
  expiresAtUtc : Time
deriving DecidableEq

/-- A stored schedule.  The table admits lease columns only together. -/
structure ScheduleRecord where
  schedule : Schedule
  lease : Option ScheduleLease
  integrityDigest : String
deriving DecidableEq

/-- The digests of the canonical material of rows and of occurrence identities. -/
structure ScheduleDigests where
  integrity : Schedule → Option ScheduleLease → String
  occurrenceId : String → Time → String → String

/-- Hydration reports every invalid column as tampering. -/
def orTampered {α : Type} (code message : String) (checked : Except Rejection α) :
    Except Rejection α :=
  match checked with
  | .ok value => .ok value
  | .error _ => reject code message

theorem orTampered_ok {α : Type} {checked : Except Rejection α} {value : α} :
    orTampered code message checked = .ok value ↔ checked = .ok value := by
  cases checked <;> simp [orTampered, reject]

structure ScheduleClaimRequest where
  scheduleId : String
  expectedVersion : Nat
  expectedDueAtUtc : Time
  leaseOwner : String
  claimedAtUtc : Time
  leaseExpiresAtUtc : Time
deriving DecidableEq

section

variable (zones : ZoneSupport) (digests : ScheduleDigests)

namespace ScheduleRecord

variable (record : ScheduleRecord)

/-- A version-one row without a lease. -/
def create (schedule : Schedule) : Except Rejection ScheduleRecord := do
  require (schedule.version = 1 ∧ schedule.lastScheduledAtUtc = none) "schedule_invalid"
    "schedule creation requires one exact validated version-one Schedule"
  return { schedule, lease := none, integrityDigest := digests.integrity schedule none }

def claim? : Except Rejection (Option ScheduleClaim) :=
  match record.lease with
  | none => .ok none
  | some lease => do
      let claim : ScheduleClaim := {
        scheduleId := record.schedule.id
        scheduledForUtc := record.schedule.nextRunAtUtc
        leaseOwner := lease.owner
        claimedAtUtc := lease.claimedAtUtc
        leaseExpiresAtUtc := lease.expiresAtUtc
        recurrenceVersion := record.schedule.recurrenceVersion
        version := record.schedule.version }
      orTampered "schedule_tampered" "persisted schedule lease is invalid" (claim.validate zones)
      return some claim

def toDomain : Except Rejection Schedule := do
  require (record.integrityDigest = digests.integrity record.schedule record.lease)
    "schedule_tampered" "persisted schedule integrity digest does not match"
  orTampered "schedule_tampered" "persisted schedule is invalid" (record.schedule.validate zones)
  let _ ← record.claim? zones
  return record.schedule

/-- No lease, or one that ended before the given instant. -/
def claimable (claimedAtUtc : Time) : Bool :=
  record.lease.all fun lease => lease.expiresAtUtc < claimedAtUtc

/-- The rows that a scheduler is offered: due, enabled and free. -/
def claimableDue (now : Time) (configurationBoundOnly : Bool) : Bool :=
  record.schedule.enabled && record.schedule.nextRunAtUtc ≤ now && record.claimable now &&
    (!configurationBoundOnly || record.schedule.configurationRevision.isSome)

/-- The row holds exactly this claim, and its lease includes the given instant. -/
def heldBy (claim : ScheduleClaim) (instant : Time) : Bool :=
  record.schedule.version = claim.version && record.schedule.enabled &&
    record.schedule.nextRunAtUtc = claim.scheduledForUtc &&
    record.schedule.recurrenceVersion = claim.recurrenceVersion &&
    record.lease = some ⟨claim.leaseOwner, claim.claimedAtUtc, claim.leaseExpiresAtUtc⟩ &&
    claim.claimedAtUtc ≤ instant && instant ≤ claim.leaseExpiresAtUtc

end ScheduleRecord

namespace ScheduleClaimRequest

variable (request : ScheduleClaimRequest)

def validate : Except Rejection Unit := do
  requireId request.scheduleId "claim schedule ID"
  requireId request.leaseOwner "claim lease owner"
  require (1 ≤ request.expectedVersion) "ValueError" "expected schedule version must be positive"
  require (request.claimedAtUtc < request.leaseExpiresAtUtc)
    "ValueError" "schedule claim expiry must follow claim time"

/-- The condition of the selection and of the update: the expected row is due,
enabled and free. -/
def offers (record : ScheduleRecord) : Bool :=
  record.schedule.version = request.expectedVersion &&
    record.schedule.nextRunAtUtc = request.expectedDueAtUtc &&
    record.schedule.enabled && record.schedule.nextRunAtUtc ≤ request.claimedAtUtc &&
    record.claimable request.claimedAtUtc

def lease : ScheduleLease := ⟨request.leaseOwner, request.claimedAtUtc, request.leaseExpiresAtUtc⟩

/-- The updated row under the digest of the row that was selected. -/
def claimed (current stored : ScheduleRecord) : ScheduleRecord where
  schedule := { stored.schedule with version := request.expectedVersion + 1 }
  lease := some request.lease
  integrityDigest := digests.integrity { current.schedule with
    version := request.expectedVersion + 1 } (some request.lease)

def claim (current stored : ScheduleRecord) :
    Except Rejection (Option (ScheduleRecord × ScheduleClaim)) :=
  if request.offers stored && stored.integrityDigest = current.integrityDigest then do
    let fresh := request.claimed digests current stored
    let _ ← fresh.toDomain zones digests
    let held ← fresh.claim? zones
    let claim ← requireSome held "schedule_tampered" "claimed schedule did not retain its lease"
    return some (fresh, claim)
  else .ok none

end ScheduleClaimRequest

/-- Take the lease of a due schedule: its row and the claim, or nothing. -/
def tryClaim (request : ScheduleClaimRequest) (current stored : Option ScheduleRecord) :
    Except Rejection (Option (ScheduleRecord × ScheduleClaim)) := do
  request.validate
  match current, stored with
  | some current, some stored => do
      let _ ← current.toDomain zones digests
      if request.offers current then request.claim zones digests current stored else .ok none
  | _, _ => .ok none

/-- Hold the row of a live claim until the transaction ends. -/
def fenceClaim (claim : ScheduleClaim) (now : Time) (current stored : Option ScheduleRecord) :
    Except Rejection Bool :=
  if now < claim.claimedAtUtc ∨ claim.leaseExpiresAtUtc < now then .ok false
  else match current, stored with
    | some current, some stored => do
        let _ ← current.toDomain zones digests
        let held ← current.claim? zones
        return held = some claim && stored.heldBy claim now &&
          stored.integrityDigest = current.integrityDigest
    | _, _ => .ok false

/-- What an advance writes over the schedule of a claim. -/
def ScheduleClaim.advanced (claim : ScheduleClaim) (nextRunAtUtc : Time)
    (nextRecurrence : Option RecurrenceResult) (schedule : Schedule) : Schedule :=
  { schedule with
    nextRunAtUtc
    nextRecurrence
    lastScheduledAtUtc := some claim.scheduledForUtc
    version := claim.version + 1 }

/-- The update of an advance under its condition. -/
def ScheduleClaim.release (claim : ScheduleClaim) (nextRunAtUtc completedAtUtc : Time)
    (nextRecurrence : Option RecurrenceResult) (current stored : ScheduleRecord) :
    Except Rejection (Option ScheduleRecord) :=
  if stored.heldBy claim completedAtUtc && stored.integrityDigest = current.integrityDigest then do
    let fresh : ScheduleRecord := {
      schedule := claim.advanced nextRunAtUtc nextRecurrence stored.schedule
      lease := none
      integrityDigest := digests.integrity
        (claim.advanced nextRunAtUtc nextRecurrence current.schedule) none }
    let _ ← fresh.toDomain zones digests
    return some fresh
  else .ok none

/-- Persist the next occurrence and release the exact live claim. -/
def advanceAndReleaseClaim (claim : ScheduleClaim) (nextRunAtUtc completedAtUtc : Time)
    (nextRecurrence : Option RecurrenceResult) (current stored : Option ScheduleRecord) :
    Except Rejection (Option ScheduleRecord) := do
  require (claim.scheduledForUtc < nextRunAtUtc)
    "ValueError" "next scheduled UTC time must follow the completed occurrence"
  require (∀ recurrence ∈ nextRecurrence, recurrence.scheduledForUtc = nextRunAtUtc)
    "ValueError" "next recurrence must describe the exact next scheduled UTC time"
  if completedAtUtc < claim.claimedAtUtc ∨ claim.leaseExpiresAtUtc < completedAtUtc then .ok none
  else match current, stored with
    | some current, some stored => do
        let schedule ← current.toDomain zones digests
        let held ← current.claim? zones
        if held = some claim then do
          require (schedule.nextRecurrence.isSome → nextRecurrence.isSome)
            "schedule_recurrence_missing"
              "recorded recurrence evidence cannot become legacy unknown"
          let _ ← (claim.advanced nextRunAtUtc nextRecurrence schedule).replace zones
          claim.release zones digests nextRunAtUtc completedAtUtc nextRecurrence current stored
        else .ok none
    | _, _ => .ok none

/-- The columns that a configuration update writes. -/
def Schedule.configured (stored replacement : Schedule) : Schedule :=
  { stored with
    workflowId := replacement.workflowId
    cron := replacement.cron
    timezone := replacement.timezone
    misfirePolicy := replacement.misfirePolicy
    misfireGraceSeconds := replacement.misfireGraceSeconds
    enabled := replacement.enabled
    nextRunAtUtc := replacement.nextRunAtUtc
    nextRecurrence := replacement.nextRecurrence
    configurationRevision := replacement.configurationRevision
    version := replacement.version }

/-- Replace exactly the previous schedule, whoever holds its lease. -/
def compareAndSwapConfiguration (previous replacement : Schedule)
    (current stored : Option ScheduleRecord) : Except Rejection (Option ScheduleRecord) := do
  require (replacement.id = previous.id ∧ replacement.instanceId = previous.instanceId ∧
      replacement.triggerId = previous.triggerId ∧ replacement.version = previous.version + 1 ∧
      replacement.configurationRevision.isSome ∧
      replacement.lastScheduledAtUtc = previous.lastScheduledAtUtc)
    "schedule_configuration_invalid" "schedule replacement is not an exact bound revision"
  match current, stored with
  | some current, some stored => do
      let schedule ← current.toDomain zones digests
      if schedule = previous then do
        require (previous.nextRecurrence.isSome → replacement.nextRecurrence.isSome)
          "schedule_recurrence_missing" "recorded recurrence evidence cannot become legacy unknown"
        if stored.schedule.version = previous.version ∧
          stored.integrityDigest = current.integrityDigest then
          return some {
            schedule := stored.schedule.configured replacement
            lease := none
            integrityDigest := digests.integrity replacement none }
        else .ok none
      else .ok none
  | _, _ => .ok none

/-- The facts of a schedule that its creation supplied. -/
def Schedule.creationFacts (schedule : Schedule) : Schedule := { schedule with version := 1 }

/-- Insert a schedule, or find the one that has its identifier. -/
def addScheduleOrGet (schedule : Schedule) (stored : Option ScheduleRecord) :
    Except Rejection (ScheduleRecord × Bool) := do
  let record ← ScheduleRecord.create digests schedule
  match stored with
  | none => return (record, true)
  | some existing => do
      let found ← existing.toDomain zones digests
      require (found.creationFacts = schedule.creationFacts) "schedule_id_conflict"
        "schedule ID already identifies a different initial configuration"
      return (existing, false)

/-- Insert an unlinked occurrence, or find the one that has its identity. -/
def addOccurrenceOrGet (occurrences : List ScheduleOccurrence) (occurrence : ScheduleOccurrence) :
    Except Rejection (ScheduleOccurrence × Bool) := do
  require (occurrence.state ∈ [.claimed, .skipped] ∧ occurrence.workItemId = none ∧
    occurrence.runId = none)
    "occurrence_invalid" "new schedule occurrence must be unlinked and claimed or skipped"
  match occurrences.find? fun existing => existing.id = occurrence.id with
  | some existing => do
      require (existing.identityFacts = occurrence.identityFacts) "occurrence_id_conflict"
        "occurrence ID already identifies different immutable facts"
      return (existing, false)
  | none => do
      require (∀ existing ∈ occurrences, (existing.scheduleId, existing.scheduledForUtc) ≠
          (occurrence.scheduleId, occurrence.scheduledForUtc))
        "occurrence_identity_conflict"
          "schedule and due instant already identify another occurrence"
      return (occurrence, true)

end

end MarketingAgents
