import MarketingAgents.Persistence.ReadableRows

namespace MarketingAgents

open Library

/-! # The approval aggregate stays readable

A writer ends by reading back what it wrote.  What follows a release changes only
rows of consumed approvals, in ways that the reader accepts.
-/

namespace ApprovalLedger

variable {canonical : CanonicalForms} {ledger after : ApprovalLedger} {rows : Database}

/-- The whole current set can be read. -/
def Readable (canonical : CanonicalForms) (ledger : ApprovalLedger) : Prop :=
  ∀ head, ledger.head = some head → ∃ set current, SetLoaded canonical ledger head set ∧
    SetListed canonical ledger set.planHash set.proposalRevision set current

theorem actionAgrees_delivered {stored updated : StoredAction}
    (delivered : stored.Delivered updated) (agrees : ledger.actionAgrees request stored.action) :
    request.status = .consumed ∧ ledger.actionAgrees request updated.action := by
  have live := delivered.live
  have notCancelled : stored.action.state ≠ .cancelled := by
    intro cancelled
    simp [cancelled] at live
  cases status : request.status with
  | pending =>
      simp only [actionAgrees, status, Bool.and_eq_true, decide_eq_true_eq] at agrees
      simp [agrees.1] at live
  | approved =>
      simp only [actionAgrees, status, Bool.and_eq_true, decide_eq_true_eq] at agrees
      simp [agrees.1.1] at live
  | rejected =>
      simp only [actionAgrees, status, Bool.and_eq_true, decide_eq_true_eq] at agrees
      simp [agrees.1.1] at live
  | expired =>
      simp only [actionAgrees, terminalExpiry, status, Bool.and_eq_true, Bool.or_eq_true,
        decide_eq_true_eq] at agrees
      rcases agrees.2 with waiting | ended
      · simp [waiting] at live
      · exact absurd ended.1.2 notCancelled
  | consumed =>
      simp only [actionAgrees, status, Bool.and_eq_true, decide_eq_true_eq] at agrees ⊢
      exact ⟨trivial, ⟨agrees.1.1, by rw [delivered.reservation]; exact agrees.1.2⟩,
        delivered.lasting⟩
  | superseded =>
      simp only [actionAgrees, supersededAction, status, Bool.and_eq_true,
        decide_eq_true_eq] at agrees
      obtain ⟨_, _, ended⟩ := agrees
      split at ended <;> simp_all

theorem stepReadable_follows (follows : ledger.rows.RowsFollow rows)
    (readable : ledger.rows.steps.entries.all ledger.stepReadable) :
    rows.steps.entries.all ({ ledger with rows } : ApprovalLedger).stepReadable := by
  simp only [List.all_eq_true] at readable ⊢
  rintro ⟨stepId, step⟩ member
  have lookup := Table.get?_eq_some_iff.mpr member
  obtain ⟨before, found, _⟩ := follows.steps.source lookup
  have known := readable (stepId, before) (Table.mem_entries_of_get? found)
  simp only [stepReadable] at known ⊢
  cases planned : ledger.sealedSteps.get? stepId with
  | none => simp [planned] at known
  | some sealedRow =>
      simp only [planned] at known
      exact follows.histories _ stepId before step found lookup known

theorem writeSteps_follows {γ : Type} (follows : ledger.rows.RowsFollow rows)
    {view : String × RunStep → γ} (planned : ∀ stepId before after, before.Follows after →
      view (stepId, before) = view (stepId, after)) :
    ({ ledger with rows } : ApprovalLedger).writeSteps.map view = ledger.writeSteps.map view := by
  have filtered : List.Forall₂ (fun old new => old.1 = new.1 ∧ old.2.Follows new.2)
    ledger.writeSteps
      ({ ledger with rows } : ApprovalLedger).writeSteps := by
    refine related_filter follows.steps.entries ?_
    rintro ⟨_, before⟩ ⟨_, after⟩ ⟨rfl, _, _, _, _, _, rfl⟩
    rfl
  refine (map_eq_of_related filtered ?_).symm
  rintro ⟨_, before⟩ ⟨_, after⟩ ⟨rfl, step⟩
  exact planned _ before after step

theorem memberReleased_follows (follows : ledger.rows.RowsFollow rows)
    (released : ledger.memberReleased setId release member) :
    ({ ledger with rows } : ApprovalLedger).memberReleased setId release member := by
  cases recorded : member.release with
  | none => simp [memberReleased, recorded] at released
  | some memberRelease =>
      simp only [memberReleased, recorded] at released ⊢
      split at released
      · rename_i use stored record decision useFound found requestFound decisionFound
        obtain ⟨updated, lookup, followed⟩ := follows.actions.rows member.actionId stored found
        simp only [Bool.and_eq_true] at released
        obtain ⟨⟨⟨⟨used, consumed⟩, authorized⟩, reserved⟩, stepped⟩ := released
        have reservedAfter : reservationMatches setId memberRelease updated := by
          rcases followed with rfl | ⟨delivered, _⟩
          · exact reserved
          · simp only [reservationMatches, Bool.and_eq_true, decide_eq_true_eq] at reserved ⊢
            refine ⟨?_, by rw [delivered.reservation]; exact reserved.2⟩
            rw [delivered.version]
            exact Nat.le_succ_of_le reserved.1
        have steppedAfter : ({ ledger with rows } : ApprovalLedger).stepReleasedBy
          release member.stepId
            memberRelease := by
          simp only [stepReleasedBy] at stepped ⊢
          split at stepped
          · rename_i step transition stepFound transitionFound
            obtain ⟨_, stepLookup, _, _, version, _, later, rfl⟩ :=
              follows.steps.rows member.stepId step stepFound
            rw [Database.step?, stepLookup, follows.stepTransitions _ _ _ transitionFound]
            simp only [Bool.and_eq_true, decide_eq_true_eq] at stepped ⊢
            obtain ⟨⟨⟨⟨⟨before, rest⟩, other⟩, third⟩, fourth⟩, fifth⟩ := stepped
            exact ⟨⟨⟨⟨⟨Nat.le_trans before later, rest⟩, other⟩, third⟩, fourth⟩, fifth⟩
          · cases stepped
        rw [useFound, requestFound, Database.action?, lookup]
        simp only [decision?] at decisionFound
        simp only [decision?, decisionFound, Bool.and_eq_true]
        exact ⟨⟨⟨⟨used, consumed⟩, authorized⟩, reservedAfter⟩, steppedAfter⟩
      · cases released

theorem SetLoaded.follow {head : AuthorizationSetHead} {set : AuthorizationSetRecord}
    (loaded : SetLoaded canonical ledger head set) (follows : ledger.rows.RowsFollow rows) :
    SetLoaded canonical { ledger with rows } head set where
  selected := loaded.selected
  stored := loaded.stored
  valid := loaded.valid
  steps := stepReadable_follows follows loaded.steps
  members := by
    rw [writeSteps_follows follows ?_]
    · exact loaded.members
    · rintro stepId before after ⟨_, _, _, _, _, rfl⟩
      rfl
  witnessed := by
    have witnessed := loaded.witnessed
    simp only [releaseWitnessed] at witnessed ⊢
    cases released : set.release with
    | none => simpa [released] using witnessed
    | some release =>
        simp only [released, Bool.and_eq_true, List.all_eq_true, decide_eq_true_eq] at witnessed ⊢
        refine ⟨⟨?_, fun member listed => memberReleased_follows follows
          (witnessed.1.2 member listed)⟩, witnessed.2⟩
        have ran := witnessed.1.1
        simp only [runReleasedBy, Bool.and_eq_true, decide_eq_true_eq] at ran ⊢
        refine ⟨Nat.le_trans ran.1 follows.runVersion, ?_⟩
        split at ran
        · exact absurd ran.2 (by simp)
        · rename_i transition found
          rw [follows.runTransitions _ _ found]
          exact ran.2
  selects := loaded.selects

theorem Hydrated.follow (hydrated : Hydrated canonical ledger requestId record)
    (follows : ledger.rows.RowsFollow rows) :
    Hydrated canonical { ledger with rows } requestId record where
  valid := hydrated.valid
  authorized := by
    obtain ⟨authority, authorized, binding, generation, reserved, agrees⟩ := hydrated.authorized
    obtain ⟨sealedRow, step, planned, sealed_, found, plannedFound, consistent, bound⟩ :=
      authorized.consistent
    obtain ⟨updated, lookup, followed⟩ := follows.actions.rows _ _ authorized.action
    obtain ⟨_, stepLookup, _, _, _, _, _, rfl⟩ := follows.steps.rows _ _ found
    have kept : updated.action.contract = authority.stored.action.contract ∧
        updated.action.createdAt = authority.stored.action.createdAt ∧
        updated.action.reservation = authority.stored.action.reservation ∧
            updated.attemptExact := by
      rcases followed with rfl | ⟨delivered, exact_⟩
      · exact ⟨rfl, rfl, rfl, authorized.exact⟩
      · exact ⟨delivered.contract, delivered.createdAt, delivered.reservation, exact_⟩
    obtain ⟨contract, createdAt, reservation, exact_⟩ := kept
    refine ⟨⟨updated, authority.binding⟩,
      ⟨lookup, exact_, stepReadable_follows follows authorized.steps,
      sealedRow, _, planned, sealed_, stepLookup, plannedFound, ?_, ?_⟩, binding, ?_, ?_, ?_⟩
    · simp only [authorityConsistent, contract] at consistent ⊢
      exact consistent
    · rw [bound]
      simp only [bindingOf, contract]
    · rw [createdAt]
      exact generation
    · simp only [useReserved, reservation, contract] at reserved ⊢
      exact reserved
    · rcases agrees with replaced | agrees
      · exact .inl replaced
      · rcases followed with rfl | ⟨delivered, _⟩
        · exact .inr agrees
        · exact .inr (actionAgrees_delivered delivered agrees).2

theorem epochActions_follows (follows : ledger.rows.RowsFollow rows) (planHash : String)
    (proposalRevision : Nat) :
    List.Forall₂ (fun old new => old.1 = new.1 ∧ old.2.Follows new.2)
      (ledger.epochActions planHash proposalRevision)
      (({ ledger with rows } : ApprovalLedger).epochActions planHash proposalRevision) := by
  refine List.rel_flatMap follows.steps.entries ?_
  rintro ⟨stepId, _⟩ ⟨_, _⟩ ⟨rfl, _⟩
  refine related_filter follows.actions.entries ?_
  rintro ⟨_, stored⟩ ⟨_, updated⟩ ⟨rfl, followed⟩
  have contract : updated.action.contract = stored.action.contract := followed.contract
  simp only [contract]

theorem mem_epochActions {proposalRevision : Nat} {entry : String × StoredAction}
    (member : entry ∈ ledger.epochActions planHash proposalRevision) :
    ledger.rows.action? entry.1 = some entry.2 := by
  obtain ⟨_, _, filtered⟩ := List.mem_flatMap.mp member
  exact Table.get?_eq_some_iff.mpr (List.mem_filter.mp filtered).1

theorem ChainCurrent.follow {planHash : String} {proposalRevision : Nat}
    {set : AuthorizationSetRecord}
    {current : List StoredActionApprovalRequest} {leaf : StoredActionApprovalRequest}
    {setStatus : AuthorizationSetStatus} {chain : List StoredActionApprovalRequest}
    {stored updated : StoredAction}
    (checked : ChainCurrent setStatus chain stored.action leaf) (followed : stored.Follows updated)
    (listed : SetListed canonical ledger planHash proposalRevision set current)
    (member : leaf ∈ current)
    (found : ledger.rows.action? leaf.request.binding.actionId = some stored) :
    ChainCurrent setStatus chain updated.action leaf := by
  rcases followed with rfl | ⟨delivered, _⟩
  · exact checked
  · obtain ⟨record, _, same, hydrated, _, _, unreplaced, _⟩ := listed.leaf member
    obtain ⟨authority, authorized, _, _, _, agrees⟩ := hydrated.authorized
    have sameAction : authority.stored = stored := by
      have lookup := authorized.action
      rw [same] at found
      exact Option.mem_unique lookup found
    have consumed : leaf.status = .consumed := by
      rw [same]
      rw [sameAction] at agrees
      exact (actionAgrees_delivered delivered (agrees.resolve_left (not_not_intro unreplaced))).1
    refine { checked with version := fun other => absurd consumed other, reserved := fun _ => ?_ }
    rw [delivered.version]
    exact Nat.le_succ_of_le (checked.reserved consumed)

theorem SetListed.follow {planHash : String} {proposalRevision : Nat} {set : AuthorizationSetRecord}
    {current : List StoredActionApprovalRequest}
    (listed : SetListed canonical ledger planHash proposalRevision set current)
    (follows : ledger.rows.RowsFollow rows) :
    SetListed canonical { ledger with rows } planHash proposalRevision set current := by
  have actions := epochActions_follows follows planHash proposalRevision
  have keys : (ledger.epochActions planHash proposalRevision).map Prod.fst =
      (({ ledger with rows } : ApprovalLedger).epochActions planHash proposalRevision).map
        Prod.fst :=
    map_eq_of_related actions fun same => same.1
  have steps : ({ ledger with rows } : ApprovalLedger).writeSteps.map Prod.fst =
      ledger.writeSteps.map Prod.fst := writeSteps_follows follows fun _ _ _ _ => rfl
  refine {
    hydrated := fun entry member => (listed.hydrated entry member).follow follows
    covered := ?_
    nonempty := ?_
    oneSet := ?_
    members := keys.symm.trans listed.members
    requested := ?_
    chains := ?_ }
  · have contracts : (ledger.epochActions planHash proposalRevision).map
      (·.2.action.contract.stepId) =
        (({ ledger with rows } : ApprovalLedger).epochActions planHash proposalRevision).map
          (·.2.action.contract.stepId) :=
      map_eq_of_related actions fun same => congrArg DeliveryContract.stepId same.2.contract.symm
    rw [← contracts, steps]
    exact listed.covered
  · intro empty
    have lengths := actions.length_eq
    rw [empty] at lengths
    exact listed.nonempty (List.length_eq_zero_iff.mp lengths)
  · intro left leftMember right rightMember
    obtain ⟨first, firstMember, firstFollows⟩ := exists_related actions leftMember
    obtain ⟨second, secondMember, secondFollows⟩ := exists_related actions rightMember
    rw [firstFollows.2.contract, secondFollows.2.contract]
    exact listed.oneSet first firstMember second secondMember
  · rw [← keys]
    exact listed.requested
  · refine related_transfer actions listed.chains ?_
    rintro ⟨actionId, stored⟩ member ⟨_, updated⟩ leaf isCurrent ⟨rfl, followed⟩ checked
    have own : leaf.request.binding.actionId = actionId := by
      have inChain := List.mem_of_getLast? checked.ends
      simpa using (List.mem_filter.mp inChain).2
    refine checked.follow followed listed isCurrent ?_
    rw [own]
    exact mem_epochActions member

theorem Readable.follow (readable : Readable canonical ledger)
    (follows : ledger.rows.RowsFollow rows) :
    Readable canonical { ledger with rows } := by
  intro head selected
  obtain ⟨set, current, loaded, listed⟩ := readable head selected
  exact ⟨set, current, loaded.follow follows, listed.follow follows⟩

theorem readable_of_listed {proposalRevision : Nat}
    (listed : ledger.listCurrentSet canonical planHash proposalRevision = .ok current) :
    Readable canonical ledger := by
  intro head selected
  obtain ⟨set, loaded, rfl, rfl, read⟩ := (listCurrentSet_ok selected).mp listed
  exact ⟨set, current, loaded, read⟩

theorem readable_of_readBack (read : ledger.readBack canonical requestId message = .ok result) :
      Readable canonical ledger := by
  simp only [readBack, bind_ok, pure_ok, getRequest_ok] at read
  obtain ⟨_, ⟨_, _, _, _, listed, _⟩, _⟩ := read
  exact readable_of_listed listed

theorem readable_of_readBackAll
    (read : ledger.readBackAll canonical message requestIds = .ok result) (some : requestIds ≠ []) :
    Readable canonical ledger := by
  cases requestIds with
  | nil => exact absurd rfl some
  | cons requestId rest =>
      simp only [readBackAll, bind_ok] at read
      obtain ⟨_, first, _⟩ := read
      exact readable_of_readBack first

theorem SetListed.current_nonempty {planHash : String} {proposalRevision : Nat}
    {set : AuthorizationSetRecord} {current : List StoredActionApprovalRequest}
    (listed : SetListed canonical ledger planHash proposalRevision set current) :
    current.map (·.id) ≠ [] := by
  intro empty
  have lengths := listed.chains.length_eq
  rw [List.map_eq_nil_iff.mp empty] at lengths
  exact listed.nonempty (List.length_eq_zero_iff.mp lengths)

theorem addInitialSetOrGet_readable {requests : List (String × ActionApprovalRequest)}
    (readable : Readable canonical ledger)
    (added : ledger.addInitialSetOrGet canonical requests = .ok after) :
      Readable canonical after := by
  simp only [addInitialSetOrGet, bind_ok, requireSome_ok, Prod.exists] at added
  obtain ⟨_, _, _, _, requestId, first, head, _, _, _, _, _, _, _, _, _, _, rest⟩ := added
  split at rest
  · simp only [bind_ok, pure_ok] at rest
    obtain ⟨_, _, _, _, _, _, rfl⟩ := rest
    exact readable
  · simp only [bind_ok] at rest
    obtain ⟨_, _, rest⟩ := rest
    split at rest
    · simp only [bind_ok, pure_ok] at rest
      obtain ⟨_, _, rfl⟩ := rest
      exact readable
    · simp only [bind_ok, pure_ok] at rest
      obtain ⟨_, read, rfl⟩ := rest
      refine readable_of_readBackAll read ?_
      intro empty
      rw [List.map_eq_nil_iff.mp empty] at head
      cases head

theorem recordDecision_readable {expectedVersion expectedActionVersion : Nat}
    (readable : Readable canonical ledger)
    (decided : ledger.recordDecision canonical expectedVersion expectedActionVersion decision =
      .ok after) :
    Readable canonical after := by
  simp only [recordDecision, bind_ok] at decided
  obtain ⟨current, _, _, _, _, _, rest⟩ := decided
  split at rest
  · simp only [bind_ok, pure_ok] at rest
    obtain ⟨_, _, _, read, rfl⟩ := rest
    exact readable_of_readBack read
  · simp only [bind_ok, pure_ok] at rest
    obtain ⟨_, _, rfl⟩ := rest
    exact readable

theorem markExpired_readable {expectedVersion expectedActionVersion : Nat}
    {expiredAt : Time} (readable : Readable canonical ledger)
    (expired : ledger.markExpired canonical requestId expectedVersion
      expectedActionVersion expiredAt = .ok after) : Readable canonical after := by
  simp only [markExpired, bind_ok] at expired
  obtain ⟨current, _, _, _, rest⟩ := expired
  split at rest
  · simp only [bind_ok, pure_ok] at rest
    obtain ⟨_, _, rfl⟩ := rest
    exact readable
  · simp only [bind_ok, pure_ok] at rest
    obtain ⟨_, _, _, _, _, _, _, read, rfl⟩ := rest
    exact readable_of_readBack read

theorem renewExpired_readable {expectedVersion expectedActionVersion : Nat}
    (renewed : ledger.renewExpired canonical expectedVersion expectedActionVersion old replacementId
      replacement = .ok after) : Readable canonical after := by
  simp only [renewExpired, bind_ok, pure_ok] at renewed
  obtain ⟨_, _, _, _, _, _, _, _, _, _, _, _, _, _, _, read, rfl⟩ := renewed
  exact readable_of_readBack read

theorem releaseCurrentSet_readable {command : AuthorizationSetReleaseCommand}
    (released : ledger.releaseCurrentSet canonical command = .ok after) :
      Readable canonical after := by
  simp only [releaseCurrentSet, bind_ok, require_ok, pure_ok] at released
  obtain ⟨_, _, _, loaded, _, rfl, current, listed, _, _, _, _, _, _, _, _, _, read, rfl⟩ :=
    released
  have set := getCurrentAuthorizationSet_some.mp loaded
  obtain ⟨_, _, _, _, epoch⟩ := (listCurrentSet_ok set.selected).mp listed
  exact readable_of_readBackAll read epoch.current_nonempty

theorem closeCurrentSet_readable {command : AuthorizationSetCloseCommand}
    (closed : ledger.closeCurrentSet canonical command = .ok after) : Readable canonical after := by
  simp only [closeCurrentSet, bind_ok, require_ok, pure_ok] at closed
  obtain ⟨_, _, _, loaded, _, rfl, current, listed, _, _, _, _, _, _, _, _, _, read, rfl⟩ := closed
  have set := getCurrentAuthorizationSet_some.mp loaded
  obtain ⟨_, _, _, _, epoch⟩ := (listCurrentSet_ok set.selected).mp listed
  exact readable_of_readBackAll read epoch.current_nonempty

/-- The attempts of every action account for its deliveries, which begin with its release. -/
def Deliverable (ledger : ApprovalLedger) : Prop :=
  ∀ actionId stored, ledger.rows.action? actionId = some stored → stored.DeliveryHistory ∧
    (stored.action.reservation = none → stored.action.deliveryAttemptCount = 0)

theorem Deliverable.of_undelivered (deliverable : Deliverable ledger)
    (undelivered : Table.Related StoredAction.Undelivered ledger.rows.actions after.rows.actions) :
    Deliverable after := by
  intro actionId updated found
  obtain ⟨stored, lookup, same⟩ := undelivered.source found
  obtain ⟨history, unattempted⟩ := deliverable actionId stored lookup
  rcases same with rfl | ⟨free, attempts, count⟩
  · exact ⟨history, unattempted⟩
  · have none := unattempted free
    have noAttempts : stored.attempts = [] := by
      have numbered := history.numbered
      rw [none] at numbered
      exact List.map_eq_nil_iff.mp numbered
    exact ⟨.empty (count.trans none) (attempts.trans noAttempts), fun _ => count.trans none⟩

/-- A delivery operation keeps the history of its action and leaves the others alone. -/
theorem deliver_follows {operation : DeliveryOperation}
    (deliverable : Deliverable ledger) (downstream : operation.downstream ledger.database)
    (applied : operation.apply actionId ledger.database = some rows) :
    Deliverable { ledger with rows } ∧ ledger.rows.RowsFollow rows := by
  obtain ⟨stored, updated, moved⟩ := operation.apply_delivered downstream applied
  have found : ledger.rows.action? actionId = some stored := moved.found
  have read : ∀ snapshot, operation.snapshot? = some snapshot → ∀ old,
      snapshot.action? actionId = some old → old.Precedes stored := by
    intro snapshot used old lookup
    obtain rfl := downstream.2.1 snapshot used
    obtain rfl := Option.mem_unique found lookup
    exact .refl _
  obtain ⟨again, lookup, step⟩ :=
    operation.apply_step moved.found (deliverable actionId stored found).1 read applied
  have same : rows.action? actionId = some updated := by
    rw [Database.action?, moved.actions]
    exact Table.get?_set_self moved.found
  obtain rfl : again = updated := Option.mem_unique lookup same
  have follows : ledger.database.RowsFollow rows := .of_delivered moved step.history.attemptExact
  refine ⟨?_, ⟨follows.runVersion, follows.runTransitions, follows.steps, follows.stepTransitions,
    follows.histories, follows.actions⟩⟩
  intro other row present
  have present : rows.actions.get? other = some row := present
  rw [moved.actions, Table.get?_set moved.found] at present
  split at present
  · obtain rfl := Option.some.inj present
    refine ⟨step.history, fun free => ?_⟩
    have checks := stored.action.isValid
    rw [moved.delivered.reservation] at free
    have live := moved.delivered.live
    simp only [List.mem_cons, List.not_mem_nil, or_false] at live
    rcases live with state | state <;>
      simp [ExternalActionRow.valid, ExternalActionRow.reservationValid, free, state] at checks
  · exact deliverable other row present

theorem Applies.readable (applied : ledger.Applies canonical after operation)
    (readable : Readable canonical ledger) (deliverable : Deliverable ledger) :
    Readable canonical after ∧ Deliverable after := by
  cases operation with
  | addInitialSet => exact ⟨addInitialSetOrGet_readable readable applied,
      deliverable.of_undelivered (addInitialSetOrGet_undelivering applied).undelivered⟩
  | recordDecision => exact ⟨recordDecision_readable readable applied,
      deliverable.of_undelivered (recordDecision_undelivering applied).undelivered⟩
  | markExpired => exact ⟨markExpired_readable readable applied,
      deliverable.of_undelivered (markExpired_undelivering applied).undelivered⟩
  | renewExpired => exact ⟨renewExpired_readable applied,
      deliverable.of_undelivered (renewExpired_undelivering applied).undelivered⟩
  | releaseCurrentSet => exact ⟨releaseCurrentSet_readable applied,
      deliverable.of_undelivered (releaseCurrentSet_effect applied).2⟩
  | closeCurrentSet => exact ⟨closeCurrentSet_readable applied,
      deliverable.of_undelivered (closeCurrentSet_undelivering applied).undelivered⟩
  | deliver actionId operation =>
      obtain ⟨downstream, rows, stepped, rfl⟩ := applied
      obtain ⟨delivered, follows⟩ := deliver_follows deliverable downstream stepped
      exact ⟨readable.follow follows, delivered⟩
  | advanceRun =>
      obtain ⟨consistent, rows, stepped, rfl⟩ := applied
      exact ⟨readable.follow (.of_applyRunTransition consistent stepped), deliverable.of_undelivered
        (Undelivering.of_actions (Database.applyRunTransition_actions stepped)).undelivered⟩
  | advanceStep =>
      obtain ⟨consistent, rows, stepped, rfl⟩ := applied
      exact ⟨readable.follow (.of_applyStepTransition consistent stepped),
        deliverable.of_undelivered
        (Undelivering.of_actions (Database.applyStepTransition_actions stepped)).undelivered⟩

theorem readable_reachable (reached : (approvalMachine canonical).Reachable ledger) :
    Readable canonical ledger ∧ Deliverable ledger := by
  refine reached.invariant (fun state => Readable canonical state ∧ Deliverable state) ?_ ?_
  · intro origin pristine
    refine ⟨?_, ?_⟩
    · intro head selected
      cases pristine.head.symm.trans selected
    · intro actionId stored found
      obtain ⟨_, attempts, count⟩ := pristine.actions actionId stored found
      exact ⟨.empty count attempts, fun _ => count⟩
  · intro state operation after holds stepped
    have applied : state.Applies canonical after operation := stepped
    exact applied.readable holds.1 holds.2

/-- In every state reached once a set was added, the whole current set is read
without an error: the versions of the actions are those that the reader derives
from the requests, requests and actions agree, and every chain of renewals is complete. -/
theorem approvals_readable {head : AuthorizationSetHead}
    (reached : (approvalMachine canonical).Reachable ledger) (selected : ledger.head = some head) :
    ∃ set current, SetLoaded canonical ledger head set ∧
      SetListed canonical ledger set.planHash set.proposalRevision set current ∧
      ledger.listCurrentSet canonical set.planHash set.proposalRevision = .ok current := by
  obtain ⟨set, current, loaded, listed⟩ := (readable_reachable reached).1 head selected
  exact ⟨set, current, loaded, listed,
    (listCurrentSet_ok selected).mpr ⟨set, loaded, rfl, rfl, listed⟩⟩

end ApprovalLedger

namespace ApprovedWrite

theorem approvals_readable_of_renewal :
    ∃ ledger head, ApprovalLedger.run? canonicalForms renewedRelease proposed = some ledger ∧
      ledger.head = some head ∧ ∃ (set : AuthorizationSetRecord)
      (current : List StoredActionApprovalRequest),
        ledger.sets.get? head.currentSetId = some set ∧
          ledger.listCurrentSet canonicalForms set.planHash set.proposalRevision = .ok current := by
  have selects : ((ApprovalLedger.run? canonicalForms renewedRelease proposed).bind
      (·.head)).isSome := by
    decide +kernel
  obtain ⟨head, selected⟩ := Option.isSome_iff_exists.mp selects
  obtain ⟨ledger, ran, found⟩ := Option.bind_eq_some_iff.mp selected
  obtain ⟨set, current, loaded, _, listed⟩ :=
    ApprovalLedger.approvals_readable (ApprovalLedger.run?_reachable proposed_reachable ran) found
  exact ⟨ledger, head, ran, found, set, current, loaded.stored, listed⟩

end ApprovedWrite

end MarketingAgents
