import MarketingAgents.Persistence.ActionRepository
import MarketingAgents.Persistence.ApprovalRepository
import MarketingAgents.Services.RunCancellation

namespace MarketingAgents

open Library

/-! # The approval boundary

Derive the current complete set and persist one all-or-none boundary outcome.
-/

structure BoundarySnapshot where
  head : AuthorizationSetHead
  set : AuthorizationSet
  run : Run
  rows : List MemberRow

inductive ApprovalBoundaryDisposition where
  | awaiting
  | expired
  | released
  | rejected
  | cancelled
deriving DecidableEq, Repr

namespace ApprovalBoundaryService

def loadMember (db : Database) (head : AuthorizationSetHead) (set : AuthorizationSet)
    (member : AuthorizationSetMember) : Except Rejection MemberRow := do
  let (requestId, request) ← requireSome (db.currentLeaf head.currentSetId member.actionId)
    "authorization_set_member_mismatch"
    "current authorization set does not exactly bind its durable members"
  let stored ← requireSome (db.action? member.actionId) "authorization_set_member_mismatch"
    "current authorization set does not exactly bind its durable members"
  let step ← requireSome (db.step? member.stepId) "authorization_set_member_mismatch"
    "current authorization set does not exactly bind its durable members"
  require (request.actionHash = member.actionHash ∧ request.stepId = member.stepId ∧
      request.stepKey = member.stepKey ∧ stored.action.contract.actionHash = member.actionHash ∧
      stored.action.contract.stepId = member.stepId ∧ step.key = member.stepKey ∧
      step.planHash = set.planHash) "authorization_set_member_mismatch"
    "current authorization set does not exactly bind its durable members"
  return { member, requestId, request, stored, step }

def loadMembers (db : Database) (head : AuthorizationSetHead) (set : AuthorizationSet) :
    List AuthorizationSetMember → Except Rejection (List MemberRow)
  | [] => .ok []
  | member :: rest => do
      let row ← loadMember db head set member
      let rows ← loadMembers db head set rest
      return row :: rows

/-- The members are exactly the WRITE steps of the plan. -/
def coversWriteSteps (db : Database) (set : AuthorizationSet) : Bool :=
  set.members.all (fun member =>
      (db.stepsWhere fun _ step => step.effect = .write).any fun entry =>
        entry.1 = member.stepId) &&
    (db.stepsWhere fun _ step => step.effect = .write).all fun entry =>
      set.members.any fun member => member.stepId = entry.1

def loadCurrent (db : Database) : Except Rejection BoundarySnapshot := do
  let (head, set) ← requireSome db.currentAuthorizationSet "authorization_set_missing"
    "Run has no current authorization set"
  let rows ← loadMembers db head set set.members
  require (db.run.approvalRequired = some true ∧ coversWriteSteps db set)
    "authorization_set_plan_mismatch"
    "authorization set does not exactly cover every planned write step"
  return { head, set, run := db.run, rows }

/-- Store the current set under a new status. -/
def storeSet (db : Database) (snapshot : BoundarySnapshot) (status : AuthorizationSetStatus)
    (members : List AuthorizationSetMember) (release : Option SetRelease)
    (terminalReasonCode : String) (updatedAt : Time) : Database :=
  { db with
    authorizationSets := db.authorizationSets.set snapshot.head.currentSetId { snapshot.set with
      status
      members
      release
      version := snapshot.set.version + 1
      updatedAt
      terminalReasonCode := some terminalReasonCode } }

def releaseMembers (setId : String) (runVersion : Nat) (releasedAt : Time)
    (newIds : String → ReleaseIds) :
    List MemberRow → Database → Except Rejection (List AuthorizationSetMember × Database)
  | [], db => .ok ([], db)
  | row :: rest, db => do
      let result ← transitionStep row.member.stepId row.step .releaseApproval .none releasedAt
      let (member, released) ← requireSome (db.releaseMember setId runVersion releasedAt row
        (newIds row.member.actionId) result) "authorization_release_conflict"
        "authorization barrier release lost an atomic CAS"
      let (members, after) ← releaseMembers setId runVersion releasedAt newIds rest released
      return (member :: members, after)

def barrierContext (snapshot : BoundarySnapshot) : RunTransitionContext :=
  let hashes := snapshot.rows.map (·.member.actionHash)
  .approvalBarrier hashes hashes hashes
    (snapshot.rows.map fun row => (row.member.actionHash, row.request.expiresAt))

/-- Release the complete set, its steps and its actions, and start the deadline. -/
def release (db : Database) (snapshot : BoundarySnapshot) (releaseHash : String)
    (newIds : String → ReleaseIds) (releasedAt : Time) : Except Rejection Database := do
  let (runResult, executing) ← db.advanceRun .releaseApprovedPlan
    (barrierContext snapshot) releasedAt
    "authorization_release_conflict" "authorization barrier release lost an atomic CAS"
  let (members, released) ← releaseMembers snapshot.head.currentSetId
    runResult.run.version releasedAt newIds snapshot.rows executing
  let stored := storeSet released snapshot .released members (some {
    releaseHash
    releasedAt
    releasedRunVersion := runResult.run.version }) "approval_barrier_satisfied" releasedAt
  let control ← requireSome stored.control "execution_control_invalid"
    "approval release lacks its exact sealed execution control"
  require (control.policyHash = snapshot.set.planHash) "execution_control_invalid"
    "approval release lacks its exact sealed execution control"
  let started ← stored.startExecution control.version releasedAt
  return started.appendAudits [.runTransition runResult.transition none]

def closeMembers (rejecting : Bool) (closedAt : Time) :
    List MemberRow → Database → Except Rejection Database
  | [], db => .ok db
  | row :: rest, db => do
      let closed ← requireSome (db.closeMember rejecting closedAt row)
        "authorization_close_conflict" "authorization-set closure lost an atomic CAS"
      closeMembers rejecting closedAt rest closed

/-- The steps of an unreleased plan, with those whose own action was rejected apart. -/
def rejectedStep (snapshot : BoundarySnapshot) (stepId : String) : Bool :=
  snapshot.rows.any fun row =>
    row.stored.action.contract.stepId = stepId && row.request.status = .rejected

/-- End the run, every step of its plan and every member of its open set. -/
def closeCurrentSet (db : Database) (snapshot : BoundarySnapshot) (command : RunLifecycleCommand)
    (context : RunTransitionContext) (rejecting : Bool) (closedAt : Time) :
    Except Rejection Database := do
  let (runResult, ended) ← db.advanceRun command context closedAt "authorization_close_conflict"
    "authorization-set closure lost an atomic CAS"
  let (rejected, rejectedDb) ← advanceSteps runResult.run .reject (.terminal "approval_rejected")
    closedAt "authorization_close_conflict" "authorization-set closure lost an atomic CAS"
    (db.stepsWhere fun stepId _ => rejecting && rejectedStep snapshot stepId) ended
  let (cancelled, cancelledDb) ← advanceSteps runResult.run .cancel
    (.terminal (if rejecting then "sibling_approval_rejected" else "operator_cancelled"))
    closedAt "authorization_close_conflict" "authorization-set closure lost an atomic CAS"
    (db.stepsWhere fun stepId _ => !(rejecting && rejectedStep snapshot stepId)) rejectedDb
  let closed ← closeMembers rejecting closedAt snapshot.rows cancelledDb
  let stored := storeSet closed snapshot (if rejecting then .rejected else .cancelled)
    snapshot.set.members none (if rejecting then "approval_rejected"
      else "operator_cancelled") closedAt
  return stored.appendAudits (stepEvents (rejected ++ cancelled) ++
    [.runTransition runResult.transition none])

def reject (db : Database) (snapshot : BoundarySnapshot) (closedAt : Time) :
    Except Rejection Database :=
  closeCurrentSet db snapshot .rejectApproval
    (.approvalRejection (snapshot.set.members.map (·.actionHash))
      ((snapshot.rows.filter (·.request.status = .rejected)).map (·.request.actionHash)))
    true closedAt

def expireMembers (expiredAt : Time) : List MemberRow → Database → Except Rejection Database
  | [], db => .ok db
  | row :: rest, db => do
      let stored ← requireSome (db.action? row.member.actionId) "approval_action_missing"
        "approval expiration lost its exact action"
      let expired ← requireSome (db.markExpired row.requestId row.request.version
        stored.action.version expiredAt) "approval_expiration_conflict"
        "approval expiry could not be persisted at the boundary"
      expireMembers expiredAt rest expired

/-- Decide an open set that awaits its approvals. -/
def evaluateOpen (db : Database) (snapshot : BoundarySnapshot) (releaseHash : String)
    (newIds : String → ReleaseIds) (now : Time) :
    Except Rejection (ApprovalBoundaryDisposition × Database) := do
  if snapshot.rows.any (·.request.status = .rejected) then
    let after ← reject db snapshot now
    return (.rejected, after)
  else
    let stale := snapshot.rows.filter fun row =>
      row.request.status ∈ [.pending, .approved] ∧ row.request.expiresAt ≤ now
    if stale ≠ [] then
      let after ← expireMembers now stale db
      return (.expired, after)
    else if snapshot.rows.any (·.request.status = .expired) then return (.expired, db)
    else if snapshot.rows.any (·.request.status ≠ .approved) then return (.awaiting, db)
    else
      let after ← release db snapshot releaseHash newIds now
      return (.released, after)

def evaluate (db : Database) (releaseHash : String) (newIds : String → ReleaseIds) (now : Time) :
    Except Rejection (ApprovalBoundaryDisposition × Database) := do
  let snapshot ← loadCurrent db
  match snapshot.set.status with
  | .released =>
      return (if snapshot.run.state = .cancelled then .cancelled else .released, db)
  | .rejected => return (.rejected, db)
  | .cancelled => return (.cancelled, db)
  | .superseded =>
      MarketingAgents.reject "authorization_set_not_actionable"
        "current authorization set cannot cross the approval boundary"
  | .open =>
      require (snapshot.run.state = .awaitingApproval) "run_not_awaiting_approval"
        "open authorization set requires an awaiting-approval Run"
      evaluateOpen db snapshot releaseHash newIds now

def callStarted (row : MemberRow) : Bool :=
  row.stored.action.state = .dispatching && row.stored.action.call ≠ none

/-- An executing WRITE step either had its action cancelled before the call or
has its call in flight. -/
def executingWritesBound (snapshot : BoundarySnapshot) (steps : List (String × RunStep)) : Bool :=
  steps.all fun entry =>
    entry.2.effect = .read || snapshot.rows.any fun row =>
      row.stored.action.contract.stepId = entry.1 && (preCall row.stored.action || callStarted row)

def effectCount (snapshot : BoundarySnapshot) (state : ExternalActionState) : Nat :=
  snapshot.rows.countP (·.stored.action.state = state)

/-- The steps that a cancellation after release fails: those in retry backoff
and those whose action it has just cancelled. -/
def failedSteps (fenced : Database) (snapshot : BoundarySnapshot) (planHash : String)
    (controlVersion : Nat) (executing : List (String × RunStep)) :
    Except Rejection (List (String × RunStep)) := do
  let retryBackoff ← fenced.retryBackoffSteps planHash controlVersion
    "execution_attempt_lineage_invalid" "executing READ step lacks exact attempt lineage"
    (executing.filter fun entry => entry.2.effect = .read)
  return retryBackoff ++ executing.filter fun entry =>
    entry.2.effect = .write && snapshot.rows.any fun row =>
      row.stored.action.contract.stepId = entry.1 && preCall row.stored.action

/-- Fence future dispatch after release without pretending in-flight calls stop. -/
def cancelReleased (db : Database) (snapshot : BoundarySnapshot) (actorDigest : String)
    (occurredAt : Time) : Except Rejection Database := do
  let run := db.run
  let setRelease ← requireSome snapshot.set.release "released_run_not_cancellable"
    "post-release cancellation requires the exact unmodified released Run"
  require (run.state = .executing ∧ setRelease.releasedRunVersion = run.version)
    "released_run_not_cancellable"
    "post-release cancellation requires the exact unmodified released Run"
  let control ← requireSome db.control "execution_control_invalid"
    "post-release cancellation lacks its exact started execution control"
  require (control.policyHash = snapshot.set.planHash ∧
      control.window.map (·.startedAt) = some setRelease.releasedAt) "execution_control_invalid"
    "post-release cancellation lacks its exact started execution control"
  let fenced ← db.requestCancel control.version actorDigest occurredAt
  let cancellable := snapshot.rows.filter fun row => preCall row.stored.action
  let cancelledDb ← cancelUnstarted snapshot.set.planHash occurredAt "operator_cancelled"
    "action_cancellation_conflict"
      "released action changed before its pre-call cancellation committed"
    (cancellable.map fun row => (row.member.actionId, row.stored)) fenced
  require ((snapshot.rows.map (·.stored.action.contract.stepId)).Nodup)
    "released_action_step_binding_invalid" "released actions do not bind unique plan steps"
  let executing := db.stepsWhere fun _ step => step.state = .executing
  require (executingWritesBound snapshot executing) "released_action_step_binding_invalid"
    "executing WRITE step is neither pre-call cancelled nor call-started"
  let failing ← failedSteps cancelledDb snapshot snapshot.set.planHash control.version executing
  let (failed, failedDb) ← advanceSteps run .fail (.terminal "run_cancelled") occurredAt
    "step_cancellation_conflict" "queued step changed before cancellation committed" failing
    cancelledDb
  let (queued, queuedDb) ← advanceSteps run .cancel (.terminal "run_cancelled") occurredAt
    "step_cancellation_conflict" "queued step changed before cancellation committed"
    (db.stepsWhere fun _ step => step.state ∈ [.pending, .ready]) failedDb
  let (runResult, after) ← queuedDb.advanceRun .cancel (.cancellation "operator_cancelled"
      (effectCount snapshot .succeeded) (effectCount snapshot .outcomeUnknown)) occurredAt
    "run_transition_conflict" "released Run changed before cancellation committed"
  return after.appendAudits
    (cancellable.map (fun row => .actionMutation .cancelled row.member.actionId
      (row.stored.action.version + 1) (some "operator_cancelled") occurredAt) ++
    stepEvents (failed ++ queued) ++ [.runTransition runResult.transition none])

/-- Cancel a write plan through its approval boundary, before or after its release. -/
def cancelOnce (db : Database) (actorDigest : String) (closedAt : Time) :
    Except Rejection Database := do
  let snapshot ← loadCurrent db
  match snapshot.set.status with
  | .released => cancelReleased db snapshot actorDigest closedAt
  | .open =>
      require (snapshot.run.state = .awaitingApproval) "run_not_awaiting_approval"
        "pre-release cancellation requires an awaiting-approval Run"
      let control ← requireSome db.control "execution_control_invalid"
        "pre-release cancellation lacks its exact unstarted execution control"
      require (control.policyHash = snapshot.set.planHash ∧ control.window = none)
        "execution_control_invalid"
        "pre-release cancellation lacks its exact unstarted execution control"
      let fenced ← db.requestCancel control.version actorDigest closedAt
      closeCurrentSet fenced snapshot .cancel (.cancellation "operator_cancelled" 0 0)
        false closedAt
  | _ =>
      MarketingAgents.reject "authorization_set_already_terminal"
        "only an unreleased authorization set can be cancelled atomically"

end ApprovalBoundaryService

namespace ApprovalDecisionService

/-- Record one human decision and evaluate the boundary in the same transaction. -/
def decide (db : Database) (requestId decisionId : String) (approve : Bool) (releaseHash : String)
    (newIds : String → ReleaseIds) (decidedAt : Time) : Except Rejection Database := do
  let request ← requireSome (db.approvalRequests.get? requestId) "approval_request_missing"
    "approval request does not exist"
  require (request.status = .pending ∧ request.version = 1) "approval_decision_conflict"
    "approval request is no longer pending"
  let (head, set) ← requireSome db.currentAuthorizationSet "approval_record_corrupt"
    "authorization set head could not be validated"
  require (set.status = .open ∧ head.currentSetId = request.authorizationSetId)
    "approval_generation_conflict"
    "approval request is outside the current open authorization set"
  let stored ← requireSome (db.action? request.actionId) "approval_action_missing"
    "approval action does not exist"
  require (stored.action.state = .awaitingApproval ∧
      stored.action.contract.actionHash = request.actionHash) "approval_action_conflict"
    "approval action is not awaiting this exact decision"
  require (decidedAt < request.expiresAt) "approval_expired" "approval request has expired"
  let decided ← requireSome (db.recordDecision requestId decisionId approve request.version
    stored.action.version decidedAt) "approval_decision_conflict"
    "another decision won or the approval changed"
  if decided.run.state = .awaitingApproval ∧ decided.run.approvalRequired = some true then
    let (_, after) ← ApprovalBoundaryService.evaluate decided releaseHash newIds decidedAt
    return after
  else
    require (decided.run.state = .received) "approval_run_not_actionable"
      "approval decision parent Run is outside the composed boundary state"
    return decided

end ApprovalDecisionService

namespace ApprovalRecordService

def renewExpired (db : Database) (requestId replacementId : String) (expectedVersion : Nat)
    (requestedAt expiresAt : Time) : Except Rejection Database := do
  let request ← requireSome (db.approvalRequests.get? requestId) "approval_request_missing"
    "approval renewal request does not exist"
  let stored ← requireSome (db.action? request.actionId) "approval_action_missing"
    "approval renewal lost its exact action"
  requireSome (db.renewExpired requestId replacementId expectedVersion stored.action.version
    requestedAt expiresAt) "approval_renewal_conflict"
    "approval request is not the expected renewable generation"

end ApprovalRecordService

end MarketingAgents
