import Mathlib.Data.List.Sort
import MarketingAgents.Persistence.Database

namespace MarketingAgents

open Library

/-! # The run queue

Workers select runs from the queue and hold them under fenced leases.  The
rows of a claim are shared by all workers; each update of one is conditional
on what its worker believes about it.
-/

structure RunWorkerClaim where
  owner : String
  token : String
  claimedAt : Time
  expiresAt : Time
  availableAt : Time
  version : Nat
deriving DecidableEq

inductive ClaimPurpose where
  | advance
  | cancelledRecovery
deriving DecidableEq, Repr

/-- The handle of a granted claim, as its worker keeps it. -/
structure RunClaim where
  runId : String
  owner : String
  token : String
  expiresAt : Time
  purpose : ClaimPurpose
deriving DecidableEq

/-- The rows of every run and the claims on them. -/
structure RuntimeStorage where
  runs : Table String Database
  claims : Table String RunWorkerClaim
deriving DecidableEq

def activeStates : List RunState := [.received, .validated, .planned, .executing, .awaitingApproval]

/-- An open READ attempt whose call deadline has passed. -/
def expiredAttempt (now : Time) (db : Database) : Bool :=
  db.operations.rows.any fun operation => operation.attempts.any fun attempt =>
    attempt.isOpen && attempt.callDeadlineAt ≤ now

/-- A started, unconcluded provider call whose deadline and lease have passed. -/
def expiredCall (now : Time) (db : Database) : Bool :=
  db.actions.rows.any fun stored =>
    stored.action.state = .dispatching &&
      stored.action.call.any (fun call => call.deadlineAt ≤ now) &&
      stored.action.lease.any fun lease => lease.expiresAt ≤ now

/-- Only existing, expired call evidence makes a cancelled run eligible. -/
def cancelledRecovery (now : Time) (db : Database) : Bool :=
  db.run.state = .cancelled && (expiredAttempt now db || expiredCall now db)

def unclaimed (now : Time) (claim : Option RunWorkerClaim) : Bool :=
  match claim with
  | none => true
  | some claim => claim.expiresAt ≤ now && claim.availableAt ≤ now

/-- A run that the queue may hand out, with the claim row it is joined with. -/
structure QueuedRun where
  runId : String
  db : Database
  claim : Option RunWorkerClaim
deriving DecidableEq

namespace QueuedRun

def eligible (now : Time) (queued : QueuedRun) : Bool :=
  (queued.db.run.state ∈ activeStates || cancelledRecovery now queued.db) &&
    unclaimed now queued.claim

def rank (queued : QueuedRun) : Nat :=
  match queued.db.run.state with
  | .cancelled => 0
  | .awaitingApproval => 2
  | _ => 1

def availableBefore : Option Time → Option Time → Bool
  | none, some _ => true
  | some left, some right => left < right
  | _, none => false

/-- The order of the queue: cancelled runs, then those that waited longest. -/
def before (left right : QueuedRun) : Bool :=
  let leftAvailable := left.claim.map (·.availableAt)
  let rightAvailable := right.claim.map (·.availableAt)
  if left.rank ≠ right.rank then left.rank < right.rank
  else if leftAvailable ≠ rightAvailable then availableBefore leftAvailable rightAvailable
  else if left.db.run.updatedAt ≠ right.db.run.updatedAt then left.db.run.updatedAt <
    right.db.run.updatedAt
  else left.runId ≤ right.runId

def purpose (queued : QueuedRun) : ClaimPurpose :=
  if queued.db.run.state = .cancelled then .cancelledRecovery else .advance

end QueuedRun

namespace RunClaims

/-- The runs of the queue, joined with their claims. -/
def queue (storage : RuntimeStorage) : List QueuedRun :=
  storage.runs.entries.map fun entry =>
    { runId := entry.1, db := entry.2, claim := storage.claims.get? entry.1 }

/-- The first sixteen runs of the queue that may be claimed at an instant. -/
def candidates (storage : RuntimeStorage) (now : Time) : List (String × ClaimPurpose) :=
  ((((queue storage).filter (·.eligible now)).insertionSort fun left right =>
    left.before right).take 16).map fun queued => (queued.runId, queued.purpose)

/-- Insert the claim of a run that had none when it was read, or take over the
version that was read if it has expired since. -/
def take (claims : Table String RunWorkerClaim) (duration : Time)
    (runId owner token : String) (now : Time)
    (read : Option Nat) : Option (Table String RunWorkerClaim) :=
  match read with
  | none => claims.insert? runId {
      owner
      token
      claimedAt := now
      expiresAt := now + duration
      availableAt := now
      version := 1 }
  | some version => do
      let current ← claims.get? runId
      guard (current.version = version ∧ current.expiresAt ≤ now ∧ current.availableAt ≤ now)
      return claims.set runId {
        owner
        token
        claimedAt := now
        expiresAt := now + duration
        availableAt := now
        version := version + 1 }

/-- Claim the first candidate that no other worker has taken in the meantime. -/
def takeFirst (duration : Time) (owner : String) (newToken : String → String) (now : Time)
    (claims : Table String RunWorkerClaim) :
    List (String × ClaimPurpose) → Option (RunClaim × Table String RunWorkerClaim)
  | [] => none
  | (runId, purpose) :: rest =>
      match take claims duration runId owner (newToken runId) now
        ((claims.get? runId).map (·.version)) with
      | some after =>
          some ({ runId, owner, token := newToken runId, expiresAt := now + duration, purpose },
            after)
      | none => takeFirst duration owner newToken now claims rest

def claimOnce (storage : RuntimeStorage) (duration : Time) (owner : String)
    (newToken : String → String) (now : Time) : Option (RunClaim × RuntimeStorage) :=
  (takeFirst duration owner newToken now storage.claims (candidates storage now)).map fun granted =>
    (granted.1, { storage with claims := granted.2 })

/-- The row of a claim while its worker still owns it. -/
def owned (claims : Table String RunWorkerClaim) (claim : RunClaim) : Option RunWorkerClaim :=
  (claims.get? claim.runId).filter fun row => row.owner = claim.owner && row.token = claim.token

def renew (claims : Table String RunWorkerClaim) (duration : Time) (claim : RunClaim) (now : Time) :
    Option (Table String RunWorkerClaim) := do
  let row ← owned claims claim
  guard (now < row.expiresAt)
  return claims.set claim.runId { row with expiresAt := now + duration, version := row.version + 1 }

/-- Lock current ownership in the same transaction as an outcome and its audit. -/
def fenceOwned (claims : Table String RunWorkerClaim) (claim : RunClaim) (now : Time) :
    Option (Table String RunWorkerClaim) := do
  let row ← owned claims claim
  guard (now < row.expiresAt)
  return claims.set claim.runId { row with version := row.version + 1 }

def release (claims : Table String RunWorkerClaim) (claim : RunClaim) (now : Time) :
    Option (Table String RunWorkerClaim) := do
  let row ← owned claims claim
  return claims.set claim.runId { row with
    claimedAt := now - 1
    expiresAt := now
    availableAt := now + seconds 1
    version := row.version + 1 }

end RunClaims

end MarketingAgents
