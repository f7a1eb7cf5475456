import MarketingAgents.Domain.Enums

namespace MarketingAgents

inductive AuthorizationSetStatus where
  | open
  | released
  | rejected
  | cancelled
  | superseded
deriving DecidableEq, Repr

/-- What a released member records of the barrier that released it. -/
structure MemberRelease where
  approvalRequestId : String
  approvalDecisionId : String
  approvalUseId : String
  reservationId : String
  releasedStepVersion : Nat
  releasedAt : Time
deriving DecidableEq

structure AuthorizationSetMember where
  actionId : String
  actionHash : String
  stepId : String
  stepKey : String
  release : Option MemberRelease
deriving DecidableEq

structure SetRelease where
  releaseHash : String
  releasedAt : Time
  releasedRunVersion : Nat
deriving DecidableEq

/-- One complete write-authorization epoch of a run. -/
structure AuthorizationSet where
  planHash : String
  proposalRevision : Nat
  membershipHash : String
  members : List AuthorizationSetMember
  status : AuthorizationSetStatus
  version : Nat
  openedAt : Time
  updatedAt : Time
  release : Option SetRelease
  terminalReasonCode : Option String
deriving DecidableEq

/-- The run's pointer to its only current authorization set. -/
structure AuthorizationSetHead where
  currentSetId : String
  planHash : String
  proposalRevision : Nat
  membershipHash : String
  version : Nat
  updatedAt : Time
deriving DecidableEq

structure ApprovalRequest where
  generation : Nat
  actionId : String
  actionHash : String
  authorizationSetId : String
  stepId : String
  stepKey : String
  expiresAt : Time
  status : ApprovalStatus
  decisionId : Option String
  version : Nat
  updatedAt : Time
  replacementRequestId : Option String
deriving DecidableEq

structure ApprovalUse where
  requestId : String
  decisionId : String
  actionId : String
  actionHash : String
  authorizationSetId : String
  stepId : String
  stepKey : String
  reservationId : String
  usedAt : Time
deriving DecidableEq

end MarketingAgents
