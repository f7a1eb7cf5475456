import MarketingAgents.Persistence.ApprovalLedger

namespace MarketingAgents

open Library

/-! # The writers of the approval aggregate

Every writer reads the aggregate, updates it behind compare-and-swap guards and
reads back what it wrote.  A writer that raises leaves the ledger as it was,
because its transaction is rolled back.
-/

/-- The conditional update of one action row. -/
def Database.updateAction (db : Database) (actionId actionHash : String) (expectedVersion : Nat)
    (expectedState : ExternalActionState) (change : ExternalActionRow → ExternalActionRow) :
    Option Database := do
  let stored ← db.action? actionId
  guard (stored.action.contract.actionHash = actionHash ∧ stored.action.version = expectedVersion ∧
    stored.action.state = expectedState)
  let action ← ExternalAction.ofRow? (change stored.action.toExternalActionRow)
  return db.storeAction actionId { stored with action }

namespace ApprovalLedger

variable (canonical : CanonicalForms) (ledger : ApprovalLedger)

/-- Load a request that has to exist. -/
def getRequest (requestId code message : String) :
    Except Rejection StoredActionApprovalRequest := do
  let found ← ledger.get canonical requestId
  requireSome found code message

/-- Refuse a request that is not the current generation of its action. -/
def requireCurrentLeaf (current : StoredActionApprovalRequest) : Except Rejection Unit := do
  let currentSet ← ledger.listCurrentSet canonical current.request.binding.planHash
    current.request.binding.proposalRevision
  require (currentSet.any fun leaf =>
      leaf.request.binding.actionId = current.request.binding.actionId && leaf.id = current.id)
    "approval_generation_stale" "approval mutation requires the current request generation"

/-- Read a written request back. -/
def readBack (requestId message : String) : Except Rejection Unit := do
  let _ ← ledger.getRequest canonical requestId "approval_request_corrupt" message

def readBackAll (message : String) : List String → Except Rejection Unit
  | [] => .ok ()
  | requestId :: rest => do
      ledger.readBack canonical requestId message
      readBackAll message rest

/-- Insert a request under the unique constraints of its table. -/
def insertRequest (requestId : String) (request : ActionApprovalRequest) :
    Option ApprovalLedger := do
  guard (ledger.requests.rows.all fun record => !(record.request.generation = request.generation &&
    (record.request.binding.actionId = request.binding.actionId ||
      record.request.binding.planHash = request.binding.planHash &&
        record.request.binding.proposalRevision = request.binding.proposalRevision &&
        record.request.binding.stepKey = request.binding.stepKey)))
  let requests ← ledger.requests.insert? requestId (.created request)
  return { ledger with requests }

/-- The conditional update of a request row that nothing has replaced. -/
def updateRequest (requestId : String) (expectedVersion : Nat) (expectedStatus : ApprovalStatus)
    (target : ApprovalRequestRecord) : Option ApprovalLedger := do
  let record ← ledger.requests.get? requestId
  guard (record.version = expectedVersion ∧ record.status = expectedStatus ∧
    record.replacementRequestId = none)
  return { ledger with requests := ledger.requests.set requestId target }

/-- The conditional update of an action row behind the approval rows. -/
def updateAction (actionId actionHash : String) (expectedVersion : Nat)
    (expectedState : ExternalActionState) (change : ExternalActionRow → ExternalActionRow) :
    Option ApprovalLedger := do
  let rows ← ledger.rows.updateAction actionId actionHash expectedVersion expectedState change
  return { ledger with rows }

def validInitialSet (requests : List (String × ActionApprovalRequest)) : Bool :=
  match requests with
  | [] => false
  | (_, first) :: _ =>
      requests.all (fun entry => entry.2.generation = 1 &&
        entry.2.binding.runId = first.binding.runId &&
        entry.2.binding.planHash = first.binding.planHash &&
        entry.2.binding.proposalRevision = first.binding.proposalRevision &&
        entry.2.binding.authorizationSetId = first.binding.authorizationSetId) &&
      (requests.map (·.2.binding.actionId)).Nodup && (requests.map (·.2.binding.stepKey)).Nodup &&
      (requests.map Prod.fst).Nodup

/-- A candidate binds exactly what its sealed action and step authorize. -/
def validateCandidate (request : ActionApprovalRequest) : Except Rejection Unit := do
  let authority ← ledger.authority canonical request.binding.actionId request.binding.stepId
  require (request.binding = authority.binding ∧
      (request.generation ≠ 1 ∨ request.requestedAt = authority.stored.action.createdAt))
    "approval_candidate_mismatch"
    "approval candidate does not bind authoritative action/step snapshots"

def validateCandidates : List (String × ActionApprovalRequest) → Except Rejection Unit
  | [] => .ok ()
  | (_, request) :: rest => do
      ledger.validateCandidate canonical request
      validateCandidates rest

/-- The members of a new set: one for every WRITE step, in the order of the plan. -/
def initialMembers (requests : List (String × ActionApprovalRequest)) :
    List AuthorizationSetMemberRecord :=
  ledger.writeSteps.filterMap fun step =>
    (requests.find? (·.2.binding.stepId = step.1)).map fun entry => {
      actionId := entry.2.binding.actionId
      actionHash := entry.2.binding.actionHash
      stepId := step.1
      stepKey := step.2.key
      release := none }

def initialSet (requests : List (String × ActionApprovalRequest)) (first : ActionApprovalRequest) :
    AuthorizationSetRecord :=
  let members := ledger.initialMembers requests
  { planHash := first.binding.planHash
    proposalRevision := first.binding.proposalRevision
    membershipHash := canonical.membershipHash first.binding.authorizationSetId
      first.binding.planHash
      first.binding.proposalRevision (members.map (·.identity))
    members
    status := .open
    version := 1
    openedAt := first.requestedAt
    updatedAt := first.requestedAt
    release := none
    terminalReasonCode := none
    supersession := none }

def initialHead (setId : String) (set : AuthorizationSetRecord) : AuthorizationSetHead where
  currentSetId := setId
  planHash := set.planHash
  proposalRevision := set.proposalRevision
  membershipHash := set.membershipHash
  version := 1
  updatedAt := set.openedAt

def insertRequests : List (String × ActionApprovalRequest) → ApprovalLedger → Option ApprovalLedger
  | [], ledger => some ledger
  | (requestId, request) :: rest, ledger => do
      let inserted ← ledger.insertRequest requestId request
      insertRequests rest inserted

/-- Move every proposed action to its wait for approval. -/
def awaitApprovals : List (String × ActionApprovalRequest) → ApprovalLedger → Option ApprovalLedger
  | [], ledger => some ledger
  | (_, request) :: rest, ledger => do
      let waiting ← ledger.updateAction request.binding.actionId
        request.binding.actionHash 1 .proposed
        fun row => { row with
          state := .awaitingApproval, version := 2, updatedAt := request.requestedAt }
      awaitApprovals rest waiting

/-- Store a new set, its head and its requests, under the constraint that the run has no head. -/
def storeInitialSet (setId : String) (set : AuthorizationSetRecord)
    (requests : List (String × ActionApprovalRequest)) : Option ApprovalLedger := do
  guard (ledger.head = none ∧ ledger.sets.rows.all fun other =>
    !(other.planHash = set.planHash && other.proposalRevision = set.proposalRevision))
  let sets ← ledger.sets.insert? setId set
  let inserted ← insertRequests requests { ledger with sets, head := some (initialHead setId set) }
  awaitApprovals requests inserted

/-- The stored requests repeat the candidates of a set that has already been added. -/
def requireReplay (requests : List (String × ActionApprovalRequest))
    (first : ActionApprovalRequest) : Except Rejection Unit := do
  let existing ← ledger.listCurrentSet canonical first.binding.planHash
    first.binding.proposalRevision
  require (existing.length = requests.length ∧ sameMembers
      (existing.map (·.request.binding.actionId)) (requests.map (·.2.binding.actionId)))
    "partial_approval_set" "approval replay found a partial or unexpected request set"
  require (requests.all fun entry => existing.any fun stored =>
      stored.request.binding = entry.2.binding && stored.request.requestedBy = entry.2.requestedBy)
    "approval_request_collision" "approval replay differs from authoritative stored semantics"

/-- Add the first request of every WRITE action and open the set that authorizes them together. -/
def addInitialSetOrGet (requests : List (String × ActionApprovalRequest)) :
    Except Rejection ApprovalLedger := do
  require (validInitialSet requests) "ValueError"
    "initial approval request set scope must be uniform"
  ledger.validateCandidates canonical requests
  let (_, first) ← requireSome requests.head? "ValueError"
    "initial approval request set must be a nonempty tuple"
  require (requests.all (·.2.requestedAt = first.requestedAt)) "authorization_set_time_mismatch"
    "all initial authorization members must open at one exact instant"
  require (sameMembers (requests.map (·.2.binding.stepId)) (ledger.writeSteps.map Prod.fst))
    "authorization_set_membership_mismatch"
    "authorization set must exactly cover canonical persisted WRITE steps"
  let setId := first.binding.authorizationSetId
  let set := ledger.initialSet canonical requests first
  require (set.valid canonical setId) "ValueError"
    "authorization set failed exact aggregate hydration"
  let actions := ledger.rows.actions.entries.filter fun entry =>
    entry.2.action.contract.planHash = first.binding.planHash &&
      entry.2.action.contract.proposalRevision = first.binding.proposalRevision
  require (sameMembers (actions.map Prod.fst) (requests.map (·.2.binding.actionId)) ∧
      ∀ entry ∈ actions, entry.2.action.contract.authorizationSetId = setId)
    "partial_approval_set" "initial requests must exactly cover the authoritative action set"
  require (sameMembers (actions.map (·.2.action.contract.stepId)) (ledger.writeSteps.map Prod.fst) ∧
      ∀ entry ∈ actions, entry.2.action.reservation = none ∧
        entry.2.action.deliveryAttemptCount = 0)
    "incomplete_action_set"
    "initial approvals require every planned write action without delivery state"
  if ∀ entry ∈ actions, entry.2.action.state = .awaitingApproval ∧ entry.2.action.version = 2 then
    ledger.requireReplay canonical requests first
    let current ← ledger.getCurrentAuthorizationSet canonical
    require (current.map (·.2) = some set ∧ current.map (·.1.currentSetId) = some setId)
      "authorization_set_replay_conflict"
      "approval replay differs from its current authorization set"
    return ledger
  else
    require (∀ entry ∈ actions, entry.2.action.state = .proposed ∧ entry.2.action.version = 1)
      "approval_action_state_conflict"
      "approval registration found a partial or unexpected action lifecycle"
    match ledger.storeInitialSet setId set requests with
    | none =>
        -- A concurrent registration won: its rows have to repeat the candidates.
        ledger.requireReplay canonical requests first
        return ledger
    | some added =>
        added.readBackAll canonical "inserted approval request could not be rehydrated"
          (requests.map Prod.fst)
        return added

/-- A request under the decision just taken. -/
def decidedRequest (current : StoredActionApprovalRequest) (expectedVersion : Nat)
    (decision : ApprovalDecision) : StoredActionApprovalRequest where
  request := current.request
  status := match decision.decision with
    | .approve => .approved
    | .reject => .rejected
  version := expectedVersion + 1
  updatedAt := decision.decidedAt
  expiredAt := none
  replacementRequestId := none
  renewedAt := none
  supersededAt := none
  supersededReasonCode := none
  id := current.id
  decision := some decision
  use := none

def decideRow (decision : ApprovalDecision) (row : ExternalActionRow) : ExternalActionRow :=
  { row with
    state := match decision.decision with
      | .approve => .approved
      | .reject => .rejected
    version := row.version + 1
    updatedAt := decision.decidedAt
    terminalReasonCode := match decision.decision with
      | .approve => none
      | .reject => some "approval_rejected" }

def storeDecision (expectedVersion expectedActionVersion : Nat)
    (current : StoredActionApprovalRequest) (decision : ApprovalDecision) :
      Option ApprovalLedger := do
  guard (ledger.decisions.rows.all (·.id ≠ decision.id))
  let decisions ← ledger.decisions.insert? decision.requestId decision
  let decided ← ApprovalLedger.updateAction { ledger with decisions } decision.actionId
    decision.actionHash expectedActionVersion .awaitingApproval (decideRow decision)
  decided.updateRequest decision.requestId expectedVersion .pending
    (decidedRequest current expectedVersion decision).toApprovalRequestRecord

def recordDecision (expectedVersion expectedActionVersion : Nat) (decision : ApprovalDecision) :
    Except Rejection ApprovalLedger := do
  let current ← ledger.getRequest canonical decision.requestId "approval_request_missing"
    "approval decision request does not exist"
  ledger.requireCurrentLeaf canonical current
  require (decision.bindsRequest current.id current.request ∧
      (decidedRequest current expectedVersion decision).valid) "approval_decision_invalid"
    "approval decision does not satisfy the exact request policy"
  if current.version = expectedVersion ∧ current.status = .pending ∧
      decision.decidedAt < current.request.expiresAt then
    let decided ← requireSome
      (ledger.storeDecision expectedVersion expectedActionVersion current decision)
      "approval_decision_conflict" "another decision won the approval request"
    decided.readBack canonical decision.requestId "decided approval disappeared after persistence"
    return decided
  else
    require (ledger.decisions.get? decision.requestId = some decision) "approval_decision_conflict"
      "approval request is expired, decided, or changed concurrently"
    return ledger

/-- A request that expired, with the renewal that replaced it, if any. -/
def expiredRequest (current : StoredActionApprovalRequest) (version : Nat)
    (updatedAt expiredAt : Time)
    (renewal : Option (String × Time)) : StoredActionApprovalRequest where
  request := current.request
  status := .expired
  version
  updatedAt
  expiredAt := some expiredAt
  replacementRequestId := renewal.map Prod.fst
  renewedAt := renewal.map Prod.snd
  supersededAt := none
  supersededReasonCode := none
  id := current.id
  decision := current.decision
  use := none

/-- An approved action waits again; one that waits is only fenced. -/
def reopenAction (current : StoredActionApprovalRequest) (expectedActionVersion : Nat)
    (reopenedAt : Time) : Option ApprovalLedger :=
  let binding := current.request.binding
  if current.status = .approved then
    ledger.updateAction binding.actionId binding.actionHash expectedActionVersion
        .approved fun row =>
      { row with
        state := .awaitingApproval
        version := row.version + 1
        updatedAt := reopenedAt
        terminalReasonCode := none }
  else ledger.updateAction binding.actionId binding.actionHash expectedActionVersion
    .awaitingApproval id

def storeExpiry (current target : StoredActionApprovalRequest)
    (expectedVersion expectedActionVersion : Nat) (reopenedAt : Time) : Option ApprovalLedger := do
  let reopened ← ledger.reopenAction current expectedActionVersion reopenedAt
  reopened.updateRequest current.id expectedVersion current.status target.toApprovalRequestRecord

def markExpired (requestId : String) (expectedVersion expectedActionVersion : Nat)
    (expiredAt : Time) : Except Rejection ApprovalLedger := do
  let current ← ledger.getRequest canonical requestId "approval_request_missing"
    "approval expiration request does not exist"
  ledger.requireCurrentLeaf canonical current
  if current.status = .expired then
    require (current.expiredAt = some expiredAt) "approval_expiration_conflict"
      "approval was already expired differently"
    return ledger
  else
    require (current.version = expectedVersion ∧ current.status ∈ [.pending, .approved] ∧
        current.request.expiresAt ≤ expiredAt) "approval_expiration_conflict"
      "approval is not the expected renewable request at its expiry"
    let target := expiredRequest current (expectedVersion + 1) expiredAt expiredAt none
    require target.valid "ValueError" "expired approval state is incomplete or contradictory"
    let expired ← requireSome
      (ledger.storeExpiry current target expectedVersion expectedActionVersion expiredAt)
      "approval_expiration_conflict" "another approval lifecycle mutation won expiration"
    expired.readBack canonical requestId "expired approval disappeared after persistence"
    return expired

/-- The lifecycle that a renewal gives the request it replaces. -/
def renewalTransition (current : StoredActionApprovalRequest) (replacementId : String)
    (replacement : ActionApprovalRequest) : StoredActionApprovalRequest :=
  let expired := current.status = .expired
  expiredRequest current (current.version + if expired then 1 else 2) replacement.requestedAt
    (if expired then current.expiredAt.getD replacement.requestedAt else replacement.requestedAt)
    (some (replacementId, replacement.requestedAt))

def storeRenewal (current old : StoredActionApprovalRequest) (replacementId : String)
    (replacement : ActionApprovalRequest) (expectedVersion expectedActionVersion : Nat) :
    Option ApprovalLedger := do
  let inserted ← ledger.insertRequest replacementId replacement
  inserted.storeExpiry current old expectedVersion expectedActionVersion replacement.requestedAt

/-- Replace an expired or expirable generation by a fresh one of the same action. -/
def renewExpired (expectedVersion expectedActionVersion : Nat) (old : StoredActionApprovalRequest)
    (replacementId : String) (replacement : ActionApprovalRequest) :
      Except Rejection ApprovalLedger := do
  require (old.valid ∧ old.renewedBy replacementId replacement) "ValueError"
    "approval renewal must retain one exact action leaf and set epoch"
  ledger.validateCandidate canonical replacement
  let current ← ledger.getRequest canonical old.id "approval_request_missing"
    "approval renewal source does not exist"
  ledger.requireCurrentLeaf canonical current
  require (old = renewalTransition current replacementId replacement) "approval_renewal_invalid"
    "approval renewal does not exactly follow the current lifecycle"
  require (current.version = expectedVersion ∧ current.status ∈ [.pending, .approved, .expired] ∧
      current.replacementRequestId = none) "approval_renewal_conflict"
    "approval request is not the expected renewable generation"
  let renewed ← requireSome
    (ledger.storeRenewal current old replacementId replacement expectedVersion
    expectedActionVersion) "approval_renewal_conflict" "another renewal won the approval request"
  renewed.readBack canonical old.id "renewed approval disappeared after persistence"
  return renewed

end ApprovalLedger

end MarketingAgents
