import MarketingAgents.Persistence.ApprovalRelease

namespace MarketingAgents

open Library

/-! # What the approval reader has checked

One inversion lemma for every part of the reader.
-/

namespace ApprovalLedger

variable {canonical : CanonicalForms} {ledger : ApprovalLedger} {planHash : String}
  {proposalRevision : Nat}
variable {current requests : List StoredActionApprovalRequest}
  {stored : StoredActionApprovalRequest}

/-- The head selects a set that is complete and retains the evidence of its release. -/
structure SetLoaded (canonical : CanonicalForms) (ledger : ApprovalLedger)
    (head : AuthorizationSetHead) (set : AuthorizationSetRecord) : Prop where
  selected : ledger.head = some head
  stored : ledger.sets.get? head.currentSetId = some set
  valid : set.valid canonical head.currentSetId
  steps : ledger.rows.steps.entries.all ledger.stepReadable
  members : ledger.writeSteps.map (fun entry => (entry.1, entry.2.key)) =
    set.members.map fun member => (member.stepId, member.stepKey)
  witnessed : ledger.releaseWitnessed canonical head.currentSetId set
  selects : head.planHash = set.planHash ∧ head.proposalRevision = set.proposalRevision ∧
    head.membershipHash = set.membershipHash

theorem SetLoaded.planned {head : AuthorizationSetHead} {set : AuthorizationSetRecord}
    (loaded : SetLoaded canonical ledger head set) : ledger.writeSteps ≠ [] := by
  intro none
  have covered := loaded.members
  have checks := loaded.valid
  simp only [AuthorizationSetRecord.valid, Bool.and_eq_true, decide_eq_true_eq] at checks
  obtain ⟨⟨⟨⟨⟨_, present⟩, _⟩, _⟩, _⟩, _⟩ := checks
  rw [none, List.map_nil] at covered
  exact present (List.map_eq_nil_iff.mp covered.symm)

theorem SetLoaded.distinct {head : AuthorizationSetHead} {set : AuthorizationSetRecord}
    (loaded : SetLoaded canonical ledger head set) :
    (set.members.map (·.actionId)).Nodup ∧ (set.members.map (·.stepId)).Nodup := by
  have checks := loaded.valid
  simp only [AuthorizationSetRecord.valid, AuthorizationSetRecord.membersDistinct, Bool.and_eq_true,
    decide_eq_true_eq] at checks
  exact checks.1.1.2.1

theorem SetLoaded.stepIds {head : AuthorizationSetHead} {set : AuthorizationSetRecord}
    (loaded : SetLoaded canonical ledger head set) :
    set.members.map (·.stepId) = ledger.writeSteps.map Prod.fst := by
  have steps := congrArg (List.map Prod.fst) loaded.members
  simpa [List.map_map, Function.comp_def] using steps.symm

theorem stepsForRun_ok : ledger.stepsForRun = .ok steps ↔
    ledger.rows.steps.entries.all ledger.stepReadable ∧ steps = ledger.rows.steps.entries := by
  simp only [stepsForRun, bind_ok, require_ok, pure_ok]
  constructor
  · rintro ⟨_, readable, rfl⟩
    exact ⟨readable, rfl⟩
  · rintro ⟨readable, rfl⟩
    exact ⟨(), readable, rfl⟩

theorem getCurrentAuthorizationSet_some {head : AuthorizationSetHead}
    {set : AuthorizationSetRecord} :
    ledger.getCurrentAuthorizationSet canonical = .ok (some (head, set)) ↔
      SetLoaded canonical ledger head set := by
  unfold getCurrentAuthorizationSet
  cases selected : ledger.head with
  | none =>
      simp only [bind_ok, require_ok, pure_ok]
      constructor
      · rintro ⟨_, _, impossible⟩
        cases impossible
      · intro loaded
        have impossible := selected.symm.trans loaded.selected
        cases impossible
  | some found =>
      simp only [bind_ok, requireSome_ok, hydrateAuthorizationSet, require_ok,
        stepsForRun_ok, pure_ok, Option.some.injEq, Prod.mk.injEq]
      constructor
      · rintro ⟨_, stored, _, ⟨_, valid, _, ⟨steps, rfl⟩, _, members, witnessed⟩, _,
          selects, rfl, rfl⟩
        exact ⟨selected, stored, valid, steps, members, witnessed, selects⟩
      · intro loaded
        obtain rfl : found = head := Option.mem_unique selected loaded.selected
        exact ⟨set, loaded.stored, (),
          ⟨(), loaded.valid, _, ⟨loaded.steps, rfl⟩, (), loaded.members,
          loaded.witnessed⟩, (), loaded.selects, rfl, rfl⟩

/-- A request row agrees with the sealed action and step that it names. -/
structure Authorized (canonical : CanonicalForms) (ledger : ApprovalLedger)
    (actionId stepId : String) (authority : ApprovalAuthority) : Prop where
  action : ledger.rows.action? actionId = some authority.stored
  exact : authority.stored.attemptExact
  steps : ledger.rows.steps.entries.all ledger.stepReadable
  consistent : ∃ sealedRow step planned, ledger.sealedActions.get? actionId = some sealedRow ∧
    ledger.rows.step? stepId = some step ∧ ledger.sealedSteps.get? stepId = some planned ∧
    authorityConsistent canonical actionId stepId authority.stored sealedRow step planned ∧
    authority.binding = bindingOf canonical authority.stored sealedRow

theorem authority_ok {authority : ApprovalAuthority} :
    ledger.authority canonical actionId stepId = .ok authority ↔
      Authorized canonical ledger actionId stepId authority := by
  simp only [ApprovalLedger.authority, bind_ok, requireSome_ok, require_ok, stepsForRun_ok, pure_ok]
  constructor
  · rintro ⟨stored, action, _, exact_, sealedRow, found, _, ⟨steps, rfl⟩, step, step?,
      planned, planned?, _, consistent, rfl⟩
    exact ⟨action, exact_, steps, sealedRow, step, planned, found, step?, planned?, consistent, rfl⟩
  · rintro ⟨action, exact_, steps, sealedRow, step, planned, found, step?, planned?,
      consistent, binding⟩
    refine ⟨authority.stored, action, (), exact_, sealedRow, found, _, ⟨steps, rfl⟩, step,
      step?, planned, planned?, (), consistent, ?_⟩
    rw [← binding]

/-- A request row agrees with its action, its decision and its use. -/
structure Hydrated (canonical : CanonicalForms) (ledger : ApprovalLedger) (requestId : String)
    (record : ApprovalRequestRecord) : Prop where
  valid : (ledger.storedRequest requestId record).valid
  authorized : ∃ authority, Authorized canonical ledger record.request.binding.actionId
      record.request.binding.stepId authority ∧ record.request.binding = authority.binding ∧
    (record.request.generation ≠ 1 ∨ record.request.requestedAt =
      authority.stored.action.createdAt) ∧
    useReserved (ledger.storedRequest requestId record) authority.stored.action ∧
    (record.replacementRequestId ≠ none ∨
      ledger.actionAgrees (ledger.storedRequest requestId record) authority.stored.action)

theorem hydrate_ok :
    ledger.hydrate canonical requestId record = .ok stored ↔
      Hydrated canonical ledger requestId record ∧
        stored = ledger.storedRequest requestId record := by
  simp only [hydrate, bind_ok, require_ok, pure_ok, authority_ok]
  constructor
  · rintro ⟨authority, authorized, _, _, _, ⟨binding, generation⟩, _,
      ⟨reserved, agrees, valid⟩, rfl⟩
    exact ⟨⟨valid, authority, authorized, binding, generation, reserved, agrees⟩, rfl⟩
  · rintro ⟨⟨valid, authority, authorized, binding, generation, reserved, agrees⟩, rfl⟩
    exact ⟨authority, authorized, (), by rw [binding], (), ⟨binding, generation⟩, (),
      ⟨reserved, agrees, valid⟩, rfl⟩

theorem hydrateAll_ok :
    ledger.hydrateAll canonical entries = .ok requests ↔
      (∀ entry ∈ entries, Hydrated canonical ledger entry.1 entry.2) ∧
        requests = entries.map fun entry => ledger.storedRequest entry.1 entry.2 := by
  induction entries generalizing requests with
  | nil => simp [hydrateAll, eq_comm]
  | cons entry rest ih =>
      simp only [hydrateAll, bind_ok, pure_ok, hydrate_ok, ih, List.forall_mem_cons, List.map_cons]
      constructor
      · rintro ⟨_, ⟨first, rfl⟩, _, ⟨others, rfl⟩, rfl⟩
        exact ⟨⟨first, others⟩, rfl⟩
      · rintro ⟨⟨first, others⟩, rfl⟩
        exact ⟨_, ⟨first, rfl⟩, _, ⟨others, rfl⟩, rfl⟩

/-- The requests of one action are a complete chain of renewals whose last one is
current, and their history accounts for the version of the action. -/
structure ChainCurrent (setStatus : AuthorizationSetStatus)
    (chain : List StoredActionApprovalRequest)
    (action : ExternalAction) (last : StoredActionApprovalRequest) : Prop where
  generations : chain.map (·.request.generation) = List.range' 1 chain.length
  linked : renewalsLinked chain
  ends : chain.getLast? = some last
  unreplaced : last.replacementRequestId = none
  version : last.status ≠ .consumed → action.version = expectedActionVersion setStatus chain
  reserved : last.status = .consumed → expectedActionVersion setStatus chain + 1 ≤ action.version

/-- The requests of one action in the order of their generations. -/
def chainOf (requests : List StoredActionApprovalRequest) (actionId : String) :
    List StoredActionApprovalRequest :=
  requests.filter (·.request.binding.actionId = actionId)

theorem currentRequest_ok :
    currentRequest setStatus requests actionId action = .ok stored ↔
      ChainCurrent setStatus (chainOf requests actionId) action.action stored := by
  simp only [currentRequest, bind_ok, require_ok, requireSome_ok, pure_ok]
  constructor
  · rintro ⟨_, generations, _, linked, _, last, _, unreplaced, _, version, _, reserved, rfl⟩
    exact ⟨generations, linked, last, unreplaced, fun other => version.resolve_left other,
      fun consumed => reserved.resolve_left (not_not_intro consumed)⟩
  · intro checked
    refine ⟨(), checked.generations, (), checked.linked, stored, checked.ends, (),
      checked.unreplaced, (), ?_, (), ?_, rfl⟩
    · by_cases consumed : stored.status = .consumed
      · exact .inl consumed
      · exact .inr (checked.version consumed)
    · by_cases consumed : stored.status = .consumed
      · exact .inr (checked.reserved consumed)
      · exact .inl consumed

theorem currentRequests_ok :
    currentRequests setStatus requests actions = .ok current ↔
      List.Forall₂ (fun entry leaf => ChainCurrent setStatus
        (chainOf requests entry.1) entry.2.action leaf) actions current := by
  induction actions generalizing current with
  | nil => simp [currentRequests, eq_comm]
  | cons entry rest ih =>
      simp only [currentRequests, bind_ok, pure_ok, currentRequest_ok, ih,
        List.forall₂_cons_left_iff]
      constructor
      · rintro ⟨first, checked, others, remaining, rfl⟩
        exact ⟨first, others, checked, remaining, rfl⟩
      · rintro ⟨first, others, checked, remaining, rfl⟩
        exact ⟨first, checked, others, remaining, rfl⟩

/-- The whole current set of a run has been read. -/
structure SetListed (canonical : CanonicalForms) (ledger : ApprovalLedger) (planHash : String)
    (proposalRevision : Nat) (set : AuthorizationSetRecord)
    (current : List StoredActionApprovalRequest) : Prop where
  hydrated : ∀ entry ∈ ledger.epochRequests planHash proposalRevision,
    Hydrated canonical ledger entry.1 entry.2
  covered : sameMembers ((ledger.epochActions planHash proposalRevision).map
      (·.2.action.contract.stepId)) (ledger.writeSteps.map Prod.fst)
  nonempty : ledger.epochActions planHash proposalRevision ≠ []
  oneSet : ∀ left ∈ ledger.epochActions planHash proposalRevision,
    ∀ right ∈ ledger.epochActions planHash proposalRevision,
      left.2.action.contract.authorizationSetId = right.2.action.contract.authorizationSetId
  members : (ledger.epochActions planHash proposalRevision).map Prod.fst =
    set.members.map (·.actionId)
  requested : sameMembers ((ledger.epochRequests planHash proposalRevision).map
      (·.2.request.binding.actionId)) ((ledger.epochActions planHash proposalRevision).map Prod.fst)
  chains : List.Forall₂ (fun entry leaf => ChainCurrent set.status
      (chainOf ((ledger.epochRequests planHash proposalRevision).map fun entry =>
        ledger.storedRequest entry.1 entry.2) entry.1) entry.2.action leaf)
    (ledger.epochActions planHash proposalRevision) current

/-- Behind a head, reading the current set succeeds exactly when the set was loaded
and every one of its requests was. -/
theorem listCurrentSet_ok {head : AuthorizationSetHead} (selected : ledger.head = some head) :
    ledger.listCurrentSet canonical planHash proposalRevision = .ok current ↔
      ∃ set, SetLoaded canonical ledger head set ∧ set.planHash = planHash ∧
        set.proposalRevision = proposalRevision ∧
        SetListed canonical ledger planHash proposalRevision set current := by
  simp only [listCurrentSet, bind_ok, require_ok, hydrateAll_ok, stepsForRun_ok]
  constructor
  · rintro ⟨selection, loaded, _, epoch, requests, ⟨hydrated, rfl⟩, _, ⟨steps, rfl⟩, _,
      covered, rest⟩
    obtain ⟨set, rfl⟩ : ∃ set, selection = some (head, set) := by
      cases selection with
      | none =>
          simp only [getCurrentAuthorizationSet, selected, bind_ok, requireSome_ok, require_ok,
            pure_ok] at loaded
          obtain ⟨_, _, _, _, _, _, impossible⟩ := loaded
          cases impossible
      | some pair =>
          obtain ⟨other, set⟩ := pair
          have known := getCurrentAuthorizationSet_some.mp loaded
          obtain rfl : head = other := Option.mem_unique selected known.selected
          exact ⟨set, rfl⟩
    have known := getCurrentAuthorizationSet_some.mp loaded
    simp only [Option.all_some, Bool.and_eq_true, decide_eq_true_eq] at epoch
    split at rest
    · rename_i empty
      rw [empty] at covered
      cases written : ledger.writeSteps with
      | nil => exact absurd written known.planned
      | cons first others => simp [sameMembers, written] at covered
    · rename_i nonempty
      simp only [bind_ok, require_ok, requireSome_ok, Option.some.injEq, currentRequests_ok,
        Prod.exists] at rest
      obtain ⟨_, oneSet, _, set', same, _, members, _, requested, chains⟩ := rest
      obtain ⟨rfl, rfl⟩ : head = _ ∧ set = set' := by simpa using same
      refine ⟨set, known, epoch.1, epoch.2, hydrated, covered, nonempty, oneSet,
        members, ?_, chains⟩
      simpa [List.map_map, Function.comp_def, storedRequest] using requested
  · rintro ⟨set, loaded, samePlan, sameRevision, listed⟩
    refine ⟨some (head, set), getCurrentAuthorizationSet_some.mpr loaded, (), ?_, _,
      ⟨listed.hydrated, rfl⟩, _, ⟨loaded.steps, rfl⟩, (), listed.covered, ?_⟩
    · simp [samePlan, sameRevision]
    · rw [if_neg listed.nonempty]
      simp only [bind_ok, require_ok, requireSome_ok, Option.some.injEq,
        currentRequests_ok, Prod.exists]
      refine ⟨(), listed.oneSet, head, set, rfl, (), listed.members, (), ?_, listed.chains⟩
      simpa [List.map_map, Function.comp_def, storedRequest] using listed.requested

end ApprovalLedger

end MarketingAgents
