import MarketingAgents.Persistence.ApprovalWrites

namespace MarketingAgents

open Library

/-! # The approval barrier

An action is reserved only by a release of its whole set, every member of which
was approved, exactly and in time, by the current generation of its request.
-/

namespace ApprovalLedger

variable {canonical : CanonicalForms} {ledger after : ApprovalLedger}
variable {command : AuthorizationSetReleaseCommand}

/-- The current generation of a member's request was approved, for exactly the
action of the member, before it expired, and has not expired at the release. -/
structure MemberApproved (canonical : CanonicalForms) (ledger : ApprovalLedger)
    (set : AuthorizationSetRecord) (member : AuthorizationSetMemberRecord) (releasedAt : Time)
    (requestId : String) (record : ApprovalRequestRecord) (decision : ApprovalDecision) : Prop where
  stored : ledger.requests.get? requestId = some record
  approved : record.status = .approved
  action : record.request.binding.actionId = member.actionId
  epoch : record.request.binding.planHash = set.planHash ∧
    record.request.binding.proposalRevision = set.proposalRevision
  current : record.replacementRequestId = none ∧ ∀ otherId other,
    ledger.requests.get? otherId = some other → other.request.binding.actionId = member.actionId →
    other.request.binding.planHash = set.planHash →
    other.request.binding.proposalRevision = set.proposalRevision →
    other.request.generation ≤ record.request.generation
  decided : ledger.decisions.get? requestId = some decision
  approves : decision.decision = .approve
  exactHash : decision.actionHash = member.actionHash ∧ ∃ sealedRow,
    ledger.sealedActions.get? member.actionId = some sealedRow ∧
    member.actionHash = canonical.actionHash sealedRow.envelope
  inTime : record.request.requestedAt ≤ decision.decidedAt ∧
    decision.decidedAt < record.request.expiresAt
  unexpired : releasedAt < record.request.expiresAt

/-- A member was released: its action is reserved for its consumed approval. -/
structure MemberReserved (after : ApprovalLedger) (actionId requestId : String)
    (decision : ApprovalDecision) : Prop where
  action : ∃ stored reservation, after.rows.action? actionId = some stored ∧
    stored.action.state = .dispatchReserved ∧ stored.action.reservation = some reservation ∧
    reservation.approvalRequestId = requestId ∧ reservation.approvalDecisionId = decision.id
  consumed : ∃ record, after.requests.get? requestId = some record ∧ record.status = .consumed
  used : ∃ useId use, after.uses.get? useId = some use ∧ use.requestId = requestId ∧
    use.decisionId = decision.id

/-- One release of the complete open set. -/
structure BarrierRelease (canonical : CanonicalForms) (ledger : ApprovalLedger)
    (command : AuthorizationSetReleaseCommand) (after : ApprovalLedger) : Prop where
  selected : ledger.head = some command.head
  isOpen : ledger.sets.get? command.head.currentSetId = some command.set ∧
    command.set.status = .open
  complete : command.set.members.map (·.stepId) = ledger.writeSteps.map Prod.fst
  members : ∀ member ∈ command.set.members, ∃ requestId record decision,
    MemberApproved canonical ledger command.set member command.releasedAt requestId
      record decision ∧
    MemberReserved after member.actionId requestId decision
  closed : ∃ set, after.sets.get? command.head.currentSetId = some set ∧ set.status = .released
  onlyMembers : ∀ actionId updated reservation, after.rows.action? actionId = some updated →
    updated.action.reservation = some reservation →
    actionId ∈ command.set.members.map (·.actionId) ∨
      ∃ stored, ledger.rows.action? actionId = some stored ∧
        stored.action.reservation = some reservation
  retained : Retains ledger after

theorem ChainCurrent.generation_le
    {leaf other : StoredActionApprovalRequest} (current : ChainCurrent setStatus chain action leaf)
    (member : other ∈ chain) : other.request.generation ≤ leaf.request.generation := by
  have numbered : other.request.generation ∈ List.range' 1 chain.length := by
    rw [← current.generations]
    exact List.mem_map_of_mem member
  have last : (chain.map (·.request.generation)).getLast? = some leaf.request.generation := by
    rw [List.getLast?_map, current.ends]
    rfl
  rw [current.generations, List.getLast?_range'] at last
  split at last
  · cases last
  · have highest := Option.some.inj last
    rw [List.mem_range'_1] at numbered
    omega

theorem mem_epochRequests {proposalRevision : Nat} {entry : String × ApprovalRequestRecord} :
      entry ∈ ledger.epochRequests planHash proposalRevision ↔
      ledger.requests.get? entry.1 = some entry.2 ∧ entry.2.request.binding.planHash = planHash ∧
        entry.2.request.binding.proposalRevision = proposalRevision := by
  simp [epochRequests, List.mem_insertionSort, Table.get?_eq_some_iff]

theorem SetListed.leaf {planHash : String} {proposalRevision : Nat} {set : AuthorizationSetRecord}
    {current : List StoredActionApprovalRequest} {leaf : StoredActionApprovalRequest}
    (listed : SetListed canonical ledger planHash proposalRevision set current)
    (member : leaf ∈ current) :
    ∃ record, ledger.requests.get? leaf.id = some record ∧
    leaf = ledger.storedRequest leaf.id record ∧
      Hydrated canonical ledger leaf.id record ∧ record.request.binding.planHash = planHash ∧
      record.request.binding.proposalRevision = proposalRevision ∧
      record.replacementRequestId = none ∧
      ∀ otherId other, ledger.requests.get? otherId = some other →
        other.request.binding.actionId = leaf.request.binding.actionId →
        other.request.binding.planHash = planHash →
        other.request.binding.proposalRevision = proposalRevision →
        other.request.generation ≤ leaf.request.generation := by
  obtain ⟨entry, _, chain⟩ := exists_related listed.chains member
  have inChain := List.mem_of_getLast? chain.ends
  obtain ⟨stored, sameAction⟩ := List.mem_filter.mp inChain
  obtain ⟨⟨requestId, record⟩, epoch, rfl⟩ := List.mem_map.mp stored
  obtain ⟨found, plan, revision⟩ := mem_epochRequests.mp epoch
  refine ⟨record, found, rfl, listed.hydrated _ epoch, plan, revision, chain.unreplaced, ?_⟩
  intro otherId other lookup again samePlan sameRevision
  have otherEpoch : (otherId, other) ∈ ledger.epochRequests planHash proposalRevision :=
    mem_epochRequests.mpr ⟨lookup, samePlan, sameRevision⟩
  have otherChain : ledger.storedRequest otherId other ∈ chainOf
      ((ledger.epochRequests planHash proposalRevision).map fun entry =>
        ledger.storedRequest entry.1 entry.2) entry.1 := by
    refine List.mem_filter.mpr ⟨List.mem_map_of_mem otherEpoch, ?_⟩
    simp only [decide_eq_true_eq] at sameAction ⊢
    exact again.trans sameAction
  exact chain.generation_le otherChain

/-- A released member, once its own updates are made. -/
structure MemberStored (after : ApprovalLedger) (command : AuthorizationSetReleaseCommand)
    (member : ApprovalSetReleaseMember) : Prop where
  action : ∃ stored, after.rows.action? member.actionId = some stored ∧
    stored.action.state = .dispatchReserved ∧ stored.action.reservation = some member.reservation
  consumed : ∃ record, after.requests.get? member.request.id = some record ∧
    record.status = .consumed
  used : after.uses.get? member.useId = some member.use
  unexpired : command.releasedAt < member.request.request.expiresAt

theorem insertUse_effect (inserted : ledger.insertUse useId use = some after) :
    Retains ledger after ∧ after.rows = ledger.rows ∧ after.uses.get? useId = some use := by
  simp only [insertUse, bind, Option.bind_eq_some_iff, Option.guard_eq_some', exists_const,
    Option.pure_def, Option.some.injEq] at inserted
  obtain ⟨_, uses, added, rfl⟩ := inserted
  have known := Table.get?_insert added
  refine ⟨{ Retains.refl ledger with uses := ?_ }, rfl, ?_⟩
  · intro other found lookup
    have differs : other ≠ useId := by
      rintro rfl
      cases known.1.symm.trans lookup
    show uses.get? other = some found
    rw [known.2, if_neg differs]
    exact lookup
  · show uses.get? useId = some use
    rw [known.2, if_pos rfl]

theorem reserve_retains {rows : Database} {stored updated : StoredAction}
    (found : ledger.rows.action? actionId = some stored) (free : stored.action.reservation = none)
    (contract : updated.action.contract = stored.action.contract)
    (actions : rows.actions = ledger.rows.actions.set actionId updated) :
    Retains ledger { ledger with rows } := by
  refine { Retains.refl ledger with actions := ?_ }
  intro other before lookup
  show ∃ after, rows.actions.get? other = some after ∧ _
  rw [actions, Table.get?_set found]
  by_cases same : other = actionId
  · subst same
    obtain rfl := Option.mem_unique found lookup
    refine ⟨updated, if_pos rfl, contract, ?_⟩
    intro reservation held
    cases free.symm.trans held
  · exact ⟨before, by rw [if_neg same]; exact lookup, rfl, fun _ held => held⟩

theorem releaseMember_effect {setMember recorded : AuthorizationSetMemberRecord}
    (released : ledger.releaseMember command setMember member = some (recorded, after)) :
    Retains ledger after ∧ MemberStored after command member ∧
      Table.Related StoredAction.Undelivered ledger.rows.actions after.rows.actions ∧
      ∀ other, other ≠ member.actionId → after.rows.action? other = ledger.rows.action? other := by
  simp only [releaseMember, bind, Option.bind_eq_some_iff, Option.guard_eq_some', exists_const,
    Option.pure_def, Option.some.injEq, Prod.mk.injEq] at released
  obtain ⟨decision, _, stepped, moved, stored, lookup, ⟨_, _, _, _, _, free, _⟩, rows,
    updated, used, inserted, ⟨_, unexpired, _⟩, consumed, request, _, rfl⟩ := released
  obtain ⟨again, action, found, _, _, _, row, rfl⟩ := Database.updateAction_effect updated
  obtain rfl : stored = again := Option.mem_unique lookup found
  have sameActions := Database.applyStepTransition_actions moved
  have before : ledger.rows.action? member.actionId = some stored := by
    rw [Database.action?, ← sameActions]
    exact found
  obtain ⟨useRetained, useRows, useStored⟩ := insertUse_effect inserted
  obtain ⟨requestRetained, rfl, _⟩ := updateRequest_effect request (by simp)
  have contract : ({ stored with action } : StoredAction).action.contract =
      stored.action.contract := by
    show action.contract = stored.action.contract
    rw [row]
  have reserved : Retains ledger
      { ledger with rows := stepped.storeAction member.actionId { stored with action } } :=
    reserve_retains before free contract (congrArg (Table.set · member.actionId _) sameActions)
  have rowsAfter : used.rows = stepped.storeAction member.actionId { stored with action } := useRows
  refine ⟨(reserved.trans useRetained).trans requestRetained.toRetains,
    ⟨?_, ?_, useStored, unexpired⟩, ?_, ?_⟩
  · refine ⟨{ stored with action }, ?_, by rw [row], by rw [row]⟩
    rw [rowsAfter]
    exact Database.storeAction_action?_self found
  · obtain ⟨_, _, known, present, _⟩ := updateRequest_effect request (by simp)
    exact ⟨_, Table.get?_set_self present, rfl⟩
  · show Table.Related StoredAction.Undelivered ledger.rows.actions used.rows.actions
    rw [rowsAfter, Database.storeAction, sameActions]
    exact .of_set StoredAction.Undelivered.refl before (.inr ⟨free, rfl, by rw [row]⟩)
  · intro other differs
    rw [rowsAfter, Database.storeAction_action?_ne differs, Database.action?, sameActions]
    rfl

theorem releaseMembers_effect {setMembers recorded : List AuthorizationSetMemberRecord}
    (released : releaseMembers command setMembers members ledger = some (recorded, after))
    (fit : command.membersFit setMembers members) (distinct : (members.map (·.actionId)).Nodup) :
    Retains ledger after ∧ (∀ member ∈ members, MemberStored after command member) ∧
      Table.Related StoredAction.Undelivered ledger.rows.actions after.rows.actions ∧
      ∀ other, other ∉ members.map (·.actionId) →
        after.rows.action? other = ledger.rows.action? other := by
  induction members generalizing ledger setMembers recorded with
  | nil =>
      cases setMembers with
      | nil =>
          cases released
          exact ⟨.refl _, by simp, .refl StoredAction.Undelivered.refl _, fun _ _ => rfl⟩
      | cons _ _ => simp [AuthorizationSetReleaseCommand.membersFit] at fit
  | cons member rest ih =>
      cases setMembers with
      | nil => simp [AuthorizationSetReleaseCommand.membersFit] at fit
      | cons setMember setRest =>
          simp only [AuthorizationSetReleaseCommand.membersFit, Bool.and_eq_true] at fit
          simp only [List.map_cons, List.nodup_cons] at distinct
          simp only [releaseMembers, bind, Option.bind_eq_some_iff, Prod.exists, Option.pure_def,
            Option.some.injEq, Prod.mk.injEq] at released
          obtain ⟨_, middle, first, _, _, remaining, _, rfl⟩ := released
          obtain ⟨retained, stored, undelivered, others⟩ := releaseMember_effect first
          obtain ⟨later, storedRest, undeliveredRest, othersRest⟩ := ih remaining fit.2 distinct.2
          refine ⟨retained.trans later, ?_,
            .trans StoredAction.Undelivered.trans undelivered undeliveredRest, ?_⟩
          · intro listed isListed
            rcases List.mem_cons.mp isListed with rfl | further
            · obtain ⟨row, found, state, reservation⟩ := stored.action
              obtain ⟨record, present, status⟩ := stored.consumed
              obtain ⟨again, presentAfter, same⟩ := later.requests _ record present
              obtain rfl := same status
              refine ⟨⟨row, ?_, state, reservation⟩, ⟨_, presentAfter, status⟩,
                later.uses _ _ stored.used, stored.unexpired⟩
              rw [othersRest _ distinct.1]
              exact found
            · exact storedRest listed further
          · intro other unlisted
            simp only [List.map_cons, List.mem_cons, not_or] at unlisted
            rw [othersRest other unlisted.2, others other unlisted.1]

theorem membersFit_actionIds (fit : command.membersFit setMembers members) :
    members.map (·.actionId) = setMembers.map (·.actionId) ∧
      ∀ setMember ∈ setMembers, ∃ member ∈ members, command.memberFits setMember member := by
  induction members generalizing setMembers with
  | nil =>
      cases setMembers with
      | nil => exact ⟨rfl, by simp⟩
      | cons _ _ => simp [AuthorizationSetReleaseCommand.membersFit] at fit
  | cons member rest ih =>
      cases setMembers with
      | nil => simp [AuthorizationSetReleaseCommand.membersFit] at fit
      | cons setMember setRest =>
          simp only [AuthorizationSetReleaseCommand.membersFit, Bool.and_eq_true] at fit
          obtain ⟨same, found⟩ := ih fit.2
          have sameId : setMember.actionId = member.actionId := by
            have fits := fit.1
            simp only [AuthorizationSetReleaseCommand.memberFits, Bool.and_eq_true,
              decide_eq_true_eq] at fits
            exact fits.1.1.1.1.1.1
          refine ⟨by simp [same, sameId], ?_⟩
          intro listed isListed
          rcases List.mem_cons.mp isListed with rfl | later
          · exact ⟨member, by simp, fit.1⟩
          · obtain ⟨other, isOther, fits⟩ := found listed later
            exact ⟨other, List.mem_cons_of_mem _ isOther, fits⟩

/-- What a release member's own checks say about its decision. -/
structure MemberDecided (member : ApprovalSetReleaseMember)
    (decision : ApprovalDecision) : Prop where
  decided : member.request.decision = some decision
  reservedBy : member.reservation.approvalRequestId = member.request.id ∧
    member.reservation.approvalDecisionId = decision.id
  usedBy : member.use.requestId = member.request.id ∧ member.use.decisionId = decision.id

theorem ApprovalSetReleaseMember.valid_decided {member : ApprovalSetReleaseMember}
    (valid : member.valid) :
    member.request.status = .approved ∧
      member.action.contract.actionHash = member.request.request.binding.actionHash ∧
      ∃ decision, MemberDecided member decision := by
  simp only [ApprovalSetReleaseMember.valid, ApprovalSetReleaseMember.approvedBy,
    ApprovalSetReleaseMember.useBinds, ApprovalSetReleaseMember.reservationBinds, Bool.and_eq_true,
    decide_eq_true_eq, Option.any_eq_true] at valid
  obtain ⟨⟨⟨⟨⟨⟨⟨approved, _⟩, decision, decided, ⟨⟨_, usedBy⟩, reservedBy⟩, _⟩, hash⟩, _⟩, _⟩,
    ⟨⟨⟨⟨⟨⟨used, _⟩, _⟩, _⟩, _⟩, _⟩, _⟩⟩, ⟨⟨⟨⟨⟨⟨⟨_, _⟩, reserved⟩, _⟩, _⟩, _⟩, _⟩, _⟩⟩ := valid
  exact ⟨approved, hash, decision, decided, ⟨reserved, reservedBy⟩, used, usedBy⟩

/-- The member of the set behind a current release member was approved in time. -/
theorem memberApproved {setMember : AuthorizationSetMemberRecord}
    {member : ApprovalSetReleaseMember}
    {current : List StoredActionApprovalRequest} {set : AuthorizationSetRecord}
    (listed : SetListed canonical ledger command.set.planHash
      command.set.proposalRevision set current)
    (isCurrent : ledger.memberCurrent current member) (valid : member.valid)
    (fits : command.memberFits setMember member)
    (unexpired : command.releasedAt < member.request.request.expiresAt) :
    ∃ record decision, MemberApproved canonical ledger command.set setMember command.releasedAt
      member.request.id record decision ∧ MemberDecided member decision := by
  simp only [memberCurrent, Bool.and_eq_true, decide_eq_true_eq] at isCurrent
  obtain ⟨record, found, same, hydrated, plan, revision, unreplaced, latest⟩ :=
    listed.leaf (List.mem_of_find?_eq_some isCurrent.1)
  obtain ⟨approved, hash, decision, decided⟩ := ApprovalSetReleaseMember.valid_decided valid
  simp only [AuthorizationSetReleaseCommand.memberFits, Bool.and_eq_true, decide_eq_true_eq] at fits
  obtain ⟨⟨⟨⟨⟨⟨sameAction, sameHash⟩, _⟩, _⟩, _⟩, _⟩, _⟩ := fits
  have sameRecord : member.request.request = record.request := by rw [same]; rfl
  have recordApproved : record.status = .approved := by
    have status := approved
    rw [same] at status
    exact status
  have storedDecision : ledger.decisions.get? member.request.id = some decision := by
    have stored := decided.decided
    rw [same] at stored
    exact stored
  have binds := StoredActionApprovalRequest.valid_decision _ hydrated.valid storedDecision
  obtain ⟨approving, again, approves, _⟩ :=
    StoredActionApprovalRequest.valid_approved _ hydrated.valid recordApproved
  obtain rfl : decision = approving := Option.mem_unique storedDecision again
  simp only [ApprovalDecision.bindsRequest, Bool.and_eq_true, decide_eq_true_eq] at binds
  obtain ⟨⟨⟨⟨⟨⟨⟨⟨⟨⟨⟨⟨⟨_, _⟩, boundHash⟩, _⟩, _⟩, _⟩, _⟩, _⟩, _⟩, after_⟩, before_⟩, _⟩, _⟩, _⟩ :=
    binds
  have boundTo : decision.actionHash = record.request.binding.actionHash := boundHash
  obtain ⟨authority, authorized, binding, _⟩ := hydrated.authorized
  obtain ⟨sealedRow, step, planned, sealed_, _, _, consistent, bound⟩ := authorized.consistent
  simp only [authorityConsistent, Bool.and_eq_true, decide_eq_true_eq] at consistent
  have canonicalHash :
      authority.stored.action.contract.actionHash = canonical.actionHash sealedRow.envelope := by
    tauto
  have recordHash : record.request.binding.actionHash =
      authority.stored.action.contract.actionHash := by
    rw [binding, bound]
    rfl
  have memberHash : setMember.actionHash = record.request.binding.actionHash := by
    rw [sameHash, hash, sameRecord]
  have recordAction : record.request.binding.actionId = setMember.actionId := by
    rw [sameAction, ApprovalSetReleaseMember.actionId, sameRecord]
  refine ⟨record, decision, {
    stored := found
    approved := recordApproved
    action := recordAction
    epoch := ⟨plan, revision⟩
    current := ⟨unreplaced, ?_⟩
    decided := storedDecision
    approves
    exactHash := ⟨boundTo.trans memberHash.symm, sealedRow, ?_, ?_⟩
    inTime := ⟨after_, before_⟩
    unexpired := by rw [← sameRecord]; exact unexpired }, decided⟩
  · intro otherId other lookup action samePlan sameRevision
    rw [← sameRecord]
    exact latest otherId other lookup (action.trans sameAction) samePlan sameRevision
  · rw [← recordAction]
    exact sealed_
  · rw [memberHash, recordHash, canonicalHash]

theorem releaseCommand_valid (valid : command.valid) : command.set.status = .open ∧
    (∀ member ∈ command.members, member.valid) ∧
      command.membersFit command.set.members command.members := by
  simp only [AuthorizationSetReleaseCommand.valid, Bool.and_eq_true, decide_eq_true_eq,
    List.all_eq_true] at valid
  exact ⟨valid.1.1.1.1.1.1.1.1.1, valid.1.2, valid.2⟩

/-- A release that is accepted satisfies the whole barrier and delivers nothing. -/
theorem releaseCurrentSet_effect
    (released : ledger.releaseCurrentSet canonical command = .ok after) :
    BarrierRelease canonical ledger command after ∧
      Table.Related StoredAction.Undelivered ledger.rows.actions after.rows.actions := by
  simp only [releaseCurrentSet, bind_ok, require_ok, requireSome_ok, pure_ok] at released
  obtain ⟨_, valid, _, loaded, _, rfl, current, listed, _, _, _, isCurrent, _, stored, _,
    _, _, _, rfl⟩ :=
    released
  have set := getCurrentAuthorizationSet_some.mp loaded
  obtain ⟨_, _, _, _, epoch⟩ := (listCurrentSet_ok set.selected).mp listed
  obtain ⟨isOpen, membersValid, fit⟩ := releaseCommand_valid valid
  obtain ⟨sameIds, fitting⟩ := membersFit_actionIds fit
  simp only [storeRelease, bind, Option.bind_eq_some_iff, Prod.exists] at stored
  obtain ⟨rows, run, members, middle, updates, closed⟩ := stored
  obtain ⟨storedSet, _, target, rowsAfter, requestsAfter, usesAfter⟩ := storeSet_effect closed
  have sameActions := Database.applyRunTransition_actions run
  have distinct : (command.members.map (·.actionId)).Nodup := by
    rw [sameIds]
    exact set.distinct.1
  obtain ⟨retained, reserved, undelivered, others⟩ := releaseMembers_effect updates fit distinct
  have opened : Retains ledger { ledger with rows := rows } :=
    (Undelivering.of_actions sameActions).toRetains
  refine ⟨{
    selected := set.selected
    isOpen := ⟨set.stored, isOpen⟩
    complete := set.stepIds
    members := ?_
    closed := ⟨_, target, rfl⟩
    onlyMembers := ?_
    retained := (opened.trans retained).trans storedSet.toRetains }, ?_⟩
  · intro setMember isMember
    obtain ⟨member, listedMember, fits⟩ := fitting setMember isMember
    have done := reserved member listedMember
    obtain ⟨record, decision, approved, decided⟩ := memberApproved epoch
      (List.all_eq_true.mp isCurrent member listedMember) (membersValid member listedMember) fits
      done.unexpired
    refine ⟨member.request.id, record, decision, approved, ?_⟩
    obtain ⟨row, found, state, reservation⟩ := done.action
    have sameAction : setMember.actionId = member.actionId := by
      simp only [AuthorizationSetReleaseCommand.memberFits, Bool.and_eq_true,
        decide_eq_true_eq] at fits
      exact fits.1.1.1.1.1.1
    refine ⟨⟨row, member.reservation, ?_, state, reservation, decided.reservedBy⟩, ?_,
      ⟨member.useId, member.use, ?_, decided.usedBy⟩⟩
    · rw [rowsAfter, sameAction]
      exact found
    · rw [requestsAfter]
      exact done.consumed
    · rw [usesAfter]
      exact done.used
  · intro actionId updated reservation found held
    by_cases listedAction : actionId ∈ command.set.members.map (·.actionId)
    · exact .inl listedAction
    · rw [← sameIds] at listedAction
      rw [rowsAfter, others actionId listedAction] at found
      have before : ledger.rows.action? actionId = some updated := by
        rw [Database.action?, ← sameActions]
        exact found
      exact .inr ⟨updated, before, held⟩
  · rw [rowsAfter, ← sameActions]
    exact undelivered

theorem Applies.retains (applied : ledger.Applies canonical after operation) :
    Retains ledger after := by
  by_cases releasing : ∃ command, operation = .releaseCurrentSet command
  · obtain ⟨command, rfl⟩ := releasing
    exact (releaseCurrentSet_effect applied).1.retained
  · push Not at releasing
    exact (applied.unreserving releasing).toRetains

theorem run_retains (run : (approvalMachine canonical).Run ledger later) :
    Retains ledger later := by
  refine run.relates .refl (fun left right => left.trans right) ?_
  intro state operation after _ stepped
  have applied : state.Applies canonical _ operation := stepped
  exact applied.retains

theorem BarrierRelease.last (release : BarrierRelease canonical ledger command after)
    (run : (approvalMachine canonical).Run after later) (again : AuthorizationSetReleaseCommand)
    (last : ApprovalLedger) : later.releaseCurrentSet canonical again ≠ .ok last := by
  intro released
  have second := (releaseCurrentSet_effect released).1
  have kept := run_retains run
  obtain ⟨set, stored, status⟩ := release.closed
  obtain ⟨updated, lookup, same⟩ := kept.sets _ _ stored
  obtain rfl : updated = set := same (by simp [status])
  have head : again.head = command.head :=
    Option.some.inj (second.selected.symm.trans
      (kept.head _ (release.retained.head _ release.selected)))
  obtain ⟨current, isOpen⟩ := second.isOpen
  rw [head] at current
  obtain rfl : updated = again.set := Option.mem_unique lookup current
  cases status.symm.trans isOpen

/-- The release behind a reservation, in a run that led to the ledger that holds it. -/
structure ReservedBy (canonical : CanonicalForms) (ledger : ApprovalLedger) (actionId : String)
    (reservation : ActionReservationSnapshot) (before : ApprovalLedger)
    (command : AuthorizationSetReleaseCommand) (released : ApprovalLedger) : Prop where
  reached : (approvalMachine canonical).Reachable before
  accepted : before.releaseCurrentSet canonical command = .ok released
  barrier : BarrierRelease canonical before command released
  isMember : actionId ∈ command.set.members.map (·.actionId)
  reserved : ∃ stored, released.rows.action? actionId = some stored ∧
    stored.action.state = .dispatchReserved ∧ stored.action.reservation = some reservation
  since : (approvalMachine canonical).Run released ledger

/-- Every reservation was made by a release. -/
def ReservationsReleased (canonical : CanonicalForms) (ledger : ApprovalLedger) : Prop :=
  ∀ actionId stored reservation, ledger.rows.action? actionId = some stored →
    stored.action.reservation = some reservation →
    ∃ before command released, ReservedBy canonical ledger actionId reservation before
      command released

theorem Applies.reservationsReleased (applied : ledger.Applies canonical after operation)
    (reached : (approvalMachine canonical).Reachable ledger)
    (known : ReservationsReleased canonical ledger) : ReservationsReleased canonical after := by
  intro actionId updated reservation found held
  -- A reservation of the ledger before keeps its own release.
  have earlier : ∀ stored, ledger.rows.action? actionId = some stored →
      stored.action.reservation = some reservation →
      ∃ before command released, ReservedBy canonical after actionId reservation before command
          released := by
    intro stored lookup same
    obtain ⟨before, command, released, provenance⟩ := known actionId stored reservation lookup same
    exact ⟨before, command, released,
      { provenance with since := .tail operation provenance.since trivial applied }⟩
  by_cases releasing : ∃ command, operation = .releaseCurrentSet command
  · obtain ⟨command, rfl⟩ := releasing
    have barrier := (releaseCurrentSet_effect applied).1
    rcases barrier.onlyMembers actionId updated reservation found held with isMember |
      ⟨stored, lookup, same⟩
    · obtain ⟨member, listed, rfl⟩ := List.mem_map.mp isMember
      obtain ⟨requestId, record, decision, _, reserved⟩ := barrier.members member listed
      obtain ⟨stored, own, lookup, state, holds, _⟩ := reserved.action
      obtain rfl : updated = stored := Option.mem_unique found lookup
      exact ⟨ledger, command, after, reached, applied, barrier, isMember,
        ⟨updated, found, state, held⟩, .refl⟩
    · exact earlier stored lookup same
  · push Not at releasing
    obtain ⟨stored, lookup, same⟩ :=
      (applied.unreserving releasing).reserved actionId updated reservation found held
    exact earlier stored lookup same

theorem reservationsReleased (reached : (approvalMachine canonical).Reachable ledger) :
    ReservationsReleased canonical ledger := by
  have both : (approvalMachine canonical).Reachable ledger ∧
      ReservationsReleased canonical ledger := by
    refine reached.invariant (fun state => (approvalMachine canonical).Reachable state ∧
      ReservationsReleased canonical state) ?_ ?_
    · intro origin pristine
      refine ⟨.start pristine, ?_⟩
      intro actionId stored reservation found held
      cases (pristine.actions actionId stored found).1.symm.trans held
    · intro state operation after holds stepped
      have applied : state.Applies canonical after operation := stepped
      exact ⟨holds.1.next operation stepped, applied.reservationsReleased holds.1 holds.2⟩
  exact both.2

/-- The approval barrier. -/
theorem approval_barrier (reached : (approvalMachine canonical).Reachable ledger) :
    (∀ actionId stored, ledger.rows.action? actionId = some stored →
      stored.action.state = .dispatchReserved ∨ stored.action.reservation ≠ none →
      ∃ reservation before command released, stored.action.reservation = some reservation ∧
        ReservedBy canonical ledger actionId reservation before command released) ∧
    (∀ command after, ledger.releaseCurrentSet canonical command = .ok after →
      BarrierRelease canonical ledger command after ∧
      ∀ later, (approvalMachine canonical).Run after later →
        ∀ again last, later.releaseCurrentSet canonical again ≠ .ok last) ∧
    ∀ later, (approvalMachine canonical).Run ledger later → Retains ledger later := by
  refine ⟨?_, ?_, fun later run => run_retains run⟩
  · intro actionId stored found reserved
    cases held : stored.action.reservation with
    | none =>
        rcases reserved with state | present
        · have checks := stored.action.isValid
          simp [ExternalActionRow.valid, ExternalActionRow.reservationValid, held, state] at checks
        · exact absurd held present
    | some reservation =>
        obtain ⟨before, command, released, provenance⟩ :=
          reservationsReleased reached actionId stored reservation found held
        exact ⟨reservation, before, command, released, rfl, provenance⟩
  · intro command after released
    have barrier := (releaseCurrentSet_effect released).1
    exact ⟨barrier, fun later run again last => barrier.last run again last⟩

end ApprovalLedger

namespace ApprovedWrite

def policy : ApprovalPolicySnapshot where
  policyId := "policy"
  requiredRoles := {"marketing_lead"}
  requiredScopes := {"campaigns:approve"}
  expiresAfterSeconds := 60
  allowSelfApproval := false
  finite := by decide

def projection : ApprovalProjection where
  actionType := "send_email"
  capabilityId := "send"
  connectorFamily := "email"
  bindingId := "binding"
  destination := "list"
  payload := "{}"

def envelope : CanonicalActionEnvelope where
  actionId := "action"
  authorizationSetId := "set"
  runId := "run"
  planHash := "plan"
  proposalRevision := 1
  stepId := "step"
  stepKey := "publish"
  templateId := "template"
  instanceId := "instance"
  actionType := "send_email"
  capabilityId := "send"
  connectorFamily := "email"
  bindingId := "binding"
  destination := "list"
  payloadSchemaId := "schema"
  minimizedPayload := "{}"

def sealedAction : SealedAction where
  envelope
  policy
  redactedProjection := projection
  requestSchemaId := "schema"
  bindingConfigurationRevision := 1

def sealedStep : SealedStep where
  createdAt := 0
  runId := "run"
  capabilityId := "send"
  bindingId := "binding"
  bindingConfigurationRevision := 1
  configurationRevision := 1
  idempotencySupport := .required
  templateId := "template"
  selectedInstanceId := "instance"
  approvalPolicyId := "policy"
  approvalRequiredRoles := {"marketing_lead"}
  approvalRequiredScopes := {"campaigns:approve"}
  approvalExpiresAfterSeconds := 60
  approvalAllowSelfApproval := false
  requestRedactionFields := []

def canonicalForms : CanonicalForms where
  actionHash := fun _ => "hash"
  semanticActionHash := fun _ => "semantic"
  expectedProjection := fun envelope _ => some {
    actionType := envelope.actionType
    capabilityId := envelope.capabilityId
    connectorFamily := envelope.connectorFamily
    bindingId := envelope.bindingId
    destination := envelope.destination
    payload := envelope.minimizedPayload }
  membershipHash := fun _ _ _ _ => "members"
  releaseHash := fun _ _ _ _ _ => "release"

def stepOpened : StepStateTransition where
  stepId := "step"
  sequence := 1
  command := .initializeStep
  previousState := none
  newState := .pending
  reasonCode := "plan_step_recorded"
  occurredAt := 0
  expectedVersion := 0
  resultingVersion := 1

def stepWaiting : StepStateTransition where
  stepId := "step"
  sequence := 2
  command := .waitForApproval
  previousState := some .pending
  newState := .awaitingApproval
  reasonCode := "step_approval_required"
  occurredAt := 0
  expectedVersion := 1
  resultingVersion := 2

def waitingStep : RunStep :=
  { step with
    state := .awaitingApproval, version := 2, updatedAt := 0, requestSchemaId := some "schema" }

def proposedAction : ExternalAction where
  contract := contract .required
  state := .proposed
  createdAt := 0
  updatedAt := 0
  version := 1
  deliveryAttemptCount := 0
  reservation := none
  lease := none
  call := none
  result := none
  terminalReasonCode := none
  supersession := none
  isValid := by decide

/-- The run as it waits for its first approval. -/
def proposed : ApprovalLedger where
  rows := { database .required with
    run := {
      state := .awaitingApproval
      version := 4
      createdAt := 0
      updatedAt := 0
      approvalRequired := some true
      terminalReasonCode := none }
    steps := { entries := [("step", waitingStep)], nodup := by simp }
    stepTransitions := [stepOpened, stepWaiting]
    actions :=
      { entries := [("action", { action := proposedAction, attempts := [] })], nodup := by simp } }
  sealedActions := { entries := [("action", sealedAction)], nodup := by simp }
  sealedSteps := { entries := [("step", sealedStep)], nodup := by simp }
  head := none
  sets := .empty
  requests := .empty
  decisions := .empty
  uses := .empty

def binding : ApprovalBinding where
  actionId := "action"
  actionHash := "hash"
  authorizationSetId := "set"
  runId := "run"
  planHash := "plan"
  proposalRevision := 1
  stepId := "step"
  stepKey := "publish"
  templateId := "template"
  instanceId := "instance"
  actionType := "send_email"
  capabilityId := "send"
  connectorFamily := "email"
  bindingId := "binding"
  semanticActionHash := "semantic"
  redactedDestination := "list"
  redactedProjection := projection
  policy

def approvalRequest (generation : Nat) (positive : 1 ≤ generation) (requestedAt : Time) :
    ActionApprovalRequest where
  generation
  binding
  requestedBy := "requester"
  requestedAt
  expiresAt := requestedAt + seconds 60
  positive := ⟨positive, by decide⟩
  expiry := rfl
  isShown := by decide

def approval (id requestId : String) (decidedAt : Time) : ApprovalDecision where
  id
  requestId
  actionId := "action"
  actionHash := "hash"
  authorizationSetId := "set"
  runId := "run"
  planHash := "plan"
  proposalRevision := 1
  stepId := "step"
  stepKey := "publish"
  actorId := "approver"
  authenticationMethod := "bearer"
  correlationId := "correlation"
  decision := .approve
  authorityRoles := {"marketing_lead", "approver"}
  authorityScopes := {"campaigns:approve", "approvals:decide"}
  decidedAt
  reason := none

def renewing (now : ApprovalLedger) : Option LedgerOperation := do
  let record ← now.requests.get? "request"
  let replacement := approvalRequest 2 (by decide) (seconds 61)
  return .renewExpired record.version 4
    (ApprovalLedger.renewalTransition (now.storedRequest "request" record) "renewed" replacement)
    "renewed" replacement

def releasing (now : ApprovalLedger) : Option LedgerOperation := do
  let head ← now.head
  let set ← now.sets.get? head.currentSetId
  let record ← now.requests.get? "renewed"
  let stored ← now.rows.action? "action"
  let step ← now.rows.step? "step"
  let runTransition ← (transitionRun now.rows.run .releaseApprovedPlan
    (.approvalBarrier ["hash"] ["hash"] ["hash"] [("hash", record.request.expiresAt)])
      (seconds 63)).toOption
  let stepTransition ← (transitionStep "step" step .releaseApproval .none (seconds 63)).toOption
  return .releaseCurrentSet {
    set
    head
    runTransition
    members := [{
      request := now.storedRequest "renewed" record
      action := stored.action
      stepTransition
      useId := "use"
      use := { use with requestId := "renewed", decisionId := "second", usedAt := seconds 63 }
      reservation := { reservation with
        approvalRequestId := "renewed"
        approvalDecisionId := "second"
        reservedAt := seconds 63 } }]
    releasedAt := seconds 63 }

/-- An approval that expires, its renewal, a second approval and the release. -/
def renewedRelease : List (ApprovalLedger → Option LedgerOperation) :=
  [fun _ => some (.addInitialSet [("request", approvalRequest 1 (by decide) 0)]),
   fun _ => some (.recordDecision 1 2 (approval "first" "request" (seconds 1))),
   fun _ => some (.markExpired "request" 2 3 (seconds 60)),
   renewing,
   fun _ => some (.recordDecision 1 4 (approval "second" "renewed" (seconds 62))),
   releasing]


theorem renewedRelease_reserved :
    ((ApprovalLedger.run? canonicalForms renewedRelease proposed).bind
      (·.rows.action? "action")).map (·.action.state) = some .dispatchReserved := by decide +kernel

theorem proposed_reachable :
    (ApprovalLedger.approvalMachine canonicalForms).Reachable proposed := by
  refine .start ⟨rfl, rfl, rfl, rfl, rfl, ?_⟩
  intro actionId stored found
  obtain ⟨rfl, rfl⟩ : actionId = "action" ∧ stored =
      { action := proposedAction, attempts := [] } := by
    simpa [proposed] using Table.get?_eq_some_iff.mp found
  exact ⟨rfl, rfl, rfl⟩

theorem approval_barrier_of_renewal :
    ∃ ledger, ApprovalLedger.run? canonicalForms renewedRelease proposed = some ledger ∧
      ∃ stored reservation before command released, ledger.rows.action? "action" = some stored ∧
        stored.action.reservation = some reservation ∧
        ApprovalLedger.ReservedBy canonicalForms ledger "action" reservation before command
          released := by
  have ended := renewedRelease_reserved
  simp only [Option.map_eq_some_iff, Option.bind_eq_some_iff] at ended
  obtain ⟨stored, ⟨ledger, ran, found⟩, state⟩ := ended
  have reached := ApprovalLedger.run?_reachable proposed_reachable ran
  obtain ⟨reservation, before, command, released, held, provenance⟩ :=
    (ApprovalLedger.approval_barrier reached).1 "action" stored found (.inl state)
  exact ⟨ledger, ran, stored, reservation, before, command, released, found, held, provenance⟩

end ApprovedWrite
end MarketingAgents
