import MarketingAgents.Library.Machine
import MarketingAgents.Persistence.AtMostOnce
import MarketingAgents.Runtime.RunClaims

namespace MarketingAgents

open Library

/-! # Mutual exclusion of run claims

A worker reads the clock and the queue first and updates one claim row at a
time afterwards, so that any number of updates may lie between the two.
-/

/-- One reading of the queue, with the instant all its updates will use. -/
structure QueueSelection where
  now : Time
  candidates : List (String × ClaimPurpose)
deriving DecidableEq

/-- The queue, the selections that were read from it, and every claim that was
granted, oldest first. -/
structure ClaimedQueue where
  storage : RuntimeStorage
  clock : Time
  selections : List QueueSelection
  granted : List RunClaim
deriving DecidableEq

/-- One accepted operation of some worker, or any change of the runs themselves. -/
inductive ClaimOperation where
  | select (now : Time)
  | take (selection : QueueSelection) (claim : RunClaim) (read : Option Nat)
  | renew (claim : RunClaim) (now : Time)
  | fenceOwned (claim : RunClaim) (now : Time)
  | release (claim : RunClaim) (now : Time)
  | elsewhere (runs : Table String Database) (now : Time)

namespace ClaimedQueue

def setClaims (state : ClaimedQueue) (claims : Table String RunWorkerClaim) : ClaimedQueue :=
  { state with storage := { state.storage with claims } }

end ClaimedQueue

namespace ClaimOperation

def Applies (duration : Time) (state : ClaimedQueue) (operation : ClaimOperation)
    (after : ClaimedQueue) :
    Prop :=
  match operation with
  | select now => state.clock ≤ now ∧ after = { state with
      clock := now
      selections := state.selections ++ [⟨now, RunClaims.candidates state.storage now⟩] }
  | take selection claim read => selection ∈ state.selections ∧
      (claim.runId, claim.purpose) ∈ selection.candidates ∧
        claim.token ∉ state.granted.map (·.token) ∧
      claim.expiresAt = selection.now + duration ∧
      ∃ claims, RunClaims.take state.storage.claims duration claim.runId claim.owner claim.token
        selection.now read = some claims ∧
      after = { state.setClaims claims with granted := state.granted ++ [claim] }
  | renew claim now => state.clock ≤ now ∧ ∃ claims,
      RunClaims.renew state.storage.claims duration claim now = some claims ∧
      after = { state.setClaims claims with clock := now }
  | fenceOwned claim now => state.clock ≤ now ∧ ∃ claims,
      RunClaims.fenceOwned state.storage.claims claim now = some claims ∧
      after = { state.setClaims claims with clock := now }
  | release claim now => state.clock ≤ now ∧ ∃ claims,
      RunClaims.release state.storage.claims claim now = some claims ∧
      after = { state.setClaims claims with clock := now }
  | elsewhere runs now => state.clock ≤ now ∧
      after = { state with storage := { state.storage with runs }, clock := now }

end ClaimOperation

/-- Any number of workers on a queue in which nothing has been claimed yet. -/
def claimMachine (duration : Time) : Machine ClaimedQueue ClaimOperation where
  initial state := state.storage.claims = .empty ∧ state.selections = [] ∧ state.granted = []
  step := ClaimOperation.Applies duration

namespace RunClaims

variable {claims after : Table String RunWorkerClaim} {duration now : Time} {claim : RunClaim}
variable {runId owner token : String} {read : Option Nat}

/-- An update of the row that a claim owns. -/
structure OwnedUpdate (claims : Table String RunWorkerClaim) (claim : RunClaim)
    (row updated : RunWorkerClaim) (after : Table String RunWorkerClaim) : Prop where
  found : claims.get? claim.runId = some row
  owner : row.owner = claim.owner
  token : row.token = claim.token
  kept : updated.owner = row.owner ∧ updated.token = row.token
  version : updated.version = row.version + 1
  stored : after = claims.set claim.runId updated

theorem owned_eq_some : owned claims claim = some row ↔
    claims.get? claim.runId = some row ∧ row.owner = claim.owner ∧ row.token = claim.token := by
  simp [owned, Option.filter_eq_some_iff]

theorem renew_effect (renewed : renew claims duration claim now = some after) :
    ∃ row, now < row.expiresAt ∧ ∃ updated, OwnedUpdate claims claim row updated after := by
  simp only [renew, bind, Option.bind_eq_some_iff, Option.guard_eq_some', exists_const,
    Option.pure_def, Option.some.injEq] at renewed
  obtain ⟨row, held, live, rfl⟩ := renewed
  obtain ⟨found, owner, token⟩ := owned_eq_some.mp held
  let updated := { row with expiresAt := now + duration, version := row.version + 1 }
  exact ⟨row, live, updated, found, owner, token, ⟨rfl, rfl⟩, rfl, rfl⟩

theorem fenceOwned_effect (fenced : fenceOwned claims claim now = some after) :
    ∃ row, now < row.expiresAt ∧
      OwnedUpdate claims claim row { row with version := row.version + 1 } after := by
  simp only [fenceOwned, bind, Option.bind_eq_some_iff, Option.guard_eq_some', exists_const,
    Option.pure_def, Option.some.injEq] at fenced
  obtain ⟨row, held, live, rfl⟩ := fenced
  obtain ⟨found, owner, token⟩ := owned_eq_some.mp held
  exact ⟨row, live, found, owner, token, ⟨rfl, rfl⟩, rfl, rfl⟩

theorem release_effect (released : release claims claim now = some after) :
    ∃ row updated, updated.expiresAt = now ∧ OwnedUpdate claims claim row updated after := by
  simp only [release, bind, Option.bind_eq_some_iff, Option.pure_def, Option.some.injEq] at released
  obtain ⟨row, held, rfl⟩ := released
  obtain ⟨found, owner, token⟩ := owned_eq_some.mp held
  let updated := { row with
    claimedAt := now - 1
    expiresAt := now
    availableAt := now + seconds 1
    version := row.version + 1 }
  exact ⟨row, updated, rfl, found, owner, token, ⟨rfl, rfl⟩, rfl, rfl⟩

/-- A taken row is new, or had expired when its taker read the clock. -/
theorem take_effect (taken : take claims duration runId owner token now read = some after) :
    (∀ row, claims.get? runId = some row → row.expiresAt ≤ now) ∧
      ∃ granted, granted.owner = owner ∧ granted.token = token ∧
      granted.expiresAt = now + duration ∧
        (∀ row, claims.get? runId = some row → granted.version = row.version + 1) ∧
        ∀ other, after.get? other = if other = runId then some granted else claims.get? other := by
  cases read with
  | none =>
      let granted : RunWorkerClaim := {
        owner
        token
        claimedAt := now
        expiresAt := now + duration
        availableAt := now
        version := 1 }
      have inserted : claims.insert? runId granted = some after := taken
      obtain ⟨absent, rows⟩ := Table.get?_insert inserted
      exact ⟨by simp [absent], granted, rfl, rfl, rfl, by simp [absent], rows⟩
  | some version =>
      simp only [take, bind, Option.bind_eq_some_iff, Option.guard_eq_some', exists_const,
        Option.pure_def, Option.some.injEq] at taken
      obtain ⟨current, found, ⟨same, expired, _⟩, rfl⟩ := taken
      let granted : RunWorkerClaim := {
        owner
        token
        claimedAt := now
        expiresAt := now + duration
        availableAt := now
        version := version + 1 }
      refine ⟨?_, granted, rfl, rfl, rfl, ?_, fun other => Table.get?_set found⟩
      · intro row present
        obtain rfl := Option.mem_unique found present
        exact expired
      · intro row present
        obtain rfl := Option.mem_unique found present
        simp [granted, same]

theorem OwnedUpdate.get? (update : OwnedUpdate claims claim row updated after) (other : String) :
    after.get? other = if other = claim.runId then some updated else claims.get? other := by
  rw [update.stored]
  exact Table.get?_set update.found

end RunClaims

namespace ClaimedQueue

variable {duration now : Time} {state after later : ClaimedQueue} {operation : ClaimOperation}
variable {claim older newer : RunClaim}

/-- The claims that were granted on one run, oldest first. -/
def grantedOn (state : ClaimedQueue) (runId : String) : List RunClaim :=
  state.granted.filter fun claim => claim.runId = runId

/-- Every token was granted once, and a row carries the newest token of its run. -/
structure TokensFresh (state : ClaimedQueue) : Prop where
  fresh : (state.granted.map (·.token)).Nodup
  newest : ∀ runId row, state.storage.claims.get? runId = some row →
    ∃ claim, (state.grantedOn runId).getLast? = some claim ∧ row.owner = claim.owner ∧
      row.token = claim.token

theorem TokensFresh.update (tokens : state.TokensFresh)
    (update : RunClaims.OwnedUpdate state.storage.claims claim row updated claims) (clock : Time) :
    TokensFresh { state.setClaims claims with clock } where
  fresh := tokens.fresh
  newest := by
    intro runId found lookup
    have rows := update.get? runId
    simp only [setClaims] at lookup
    rw [rows] at lookup
    split at lookup
    · rename_i same
      obtain rfl := Option.some.inj lookup
      obtain ⟨newest, last, owner, token⟩ := tokens.newest claim.runId row update.found
      exact ⟨newest, by rw [same]; exact last, update.kept.1.trans owner, update.kept.2.trans token⟩
    · exact tokens.newest runId found lookup

theorem TokensFresh.step (tokens : state.TokensFresh)
    (stepped : (claimMachine duration).step state operation after) :
    after.TokensFresh := by
  cases operation with
  | select =>
      obtain ⟨_, rfl⟩ := stepped
      exact { tokens with }
  | elsewhere =>
      obtain ⟨_, rfl⟩ := stepped
      exact { tokens with }
  | renew claim =>
      obtain ⟨_, claims, renewed, rfl⟩ := stepped
      obtain ⟨_, _, _, update⟩ := RunClaims.renew_effect renewed
      exact tokens.update update _
  | fenceOwned claim =>
      obtain ⟨_, claims, fenced, rfl⟩ := stepped
      obtain ⟨_, _, update⟩ := RunClaims.fenceOwned_effect fenced
      exact tokens.update update _
  | release claim =>
      obtain ⟨_, claims, released, rfl⟩ := stepped
      obtain ⟨_, _, _, update⟩ := RunClaims.release_effect released
      exact tokens.update update _
  | take selection claim read =>
      obtain ⟨_, _, unused, _, claims, taken, rfl⟩ := stepped
      obtain ⟨_, granted, owner, token, _, _, rows⟩ := RunClaims.take_effect taken
      refine ⟨?_, ?_⟩
      · rw [List.map_append, List.nodup_append]
        refine ⟨tokens.fresh, by simp, ?_⟩
        intro left member right single
        simp only [List.map_cons, List.map_nil, List.mem_singleton] at single
        rintro rfl
        exact unused (single ▸ member)
      · intro runId row lookup
        simp only [setClaims] at lookup
        rw [rows] at lookup
        split at lookup
        · rename_i same
          obtain rfl := Option.some.inj lookup
          exact ⟨claim, by simp [grantedOn, same], owner, token⟩
        · rename_i differs
          obtain ⟨newest, last, held⟩ := tokens.newest runId row lookup
          refine ⟨newest, ?_, held⟩
          have other : claim.runId ≠ runId := fun same => differs same.symm
          simpa [grantedOn, List.filter_append, other] using last

theorem TokensFresh.reachable (reached : (claimMachine duration).Reachable state) :
    state.TokensFresh := by
  refine reached.invariant TokensFresh ?_ fun holds stepped => holds.step stepped
  rintro start ⟨unclaimed, _, ungranted⟩
  exact ⟨by simp [ungranted], by simp [unclaimed]⟩

theorem TokensFresh.superseded (tokens : state.TokensFresh)
    (order : [older, newer].Sublist state.granted) (same : older.runId = newer.runId)
    (found : state.storage.claims.get? older.runId = some row) : row.token ≠ older.token := by
  obtain ⟨newest, last, _, token⟩ := tokens.newest older.runId row found
  have ordered : [older, newer].Sublist (state.grantedOn older.runId) := by
    have kept := order.filter fun claim => claim.runId = older.runId
    simpa [grantedOn, same] using kept
  have distinct : ((state.grantedOn older.runId).map (·.token)).Nodup :=
    tokens.fresh.sublist (List.filter_sublist.map _)
  obtain ⟨earlier, split⟩ := List.getLast?_eq_some_iff.mp last
  rw [split] at ordered distinct
  rw [token]
  intro again
  rw [List.map_append, List.nodup_append] at distinct
  have repeated : older ∈ earlier → False := fun member =>
    distinct.2.2 older.token (List.mem_map_of_mem member) newest.token (by simp) again.symm
  obtain ⟨front, back, both, frontOf, backOf⟩ := List.sublist_append_iff.mp ordered
  cases front with
  | nil =>
      have short := backOf.length_le
      rw [List.nil_append] at both
      simp [← both] at short
  | cons first rest =>
      obtain ⟨rfl, _⟩ := List.cons_eq_cons.mp both
      exact repeated (frontOf.subset (by simp))

/-- The row of a claim does not let its worker act at the present instant. -/
def Unusable (state : ClaimedQueue) (claim : RunClaim) : Prop :=
  ∀ row, RunClaims.owned state.storage.claims claim = some row → row.expiresAt ≤ state.clock

theorem Unusable.refused (unusable : state.Unusable claim) (present : state.clock ≤ now) :
    RunClaims.renew state.storage.claims duration claim now = none ∧
      RunClaims.fenceOwned state.storage.claims claim now = none := by
  refine ⟨Option.eq_none_iff_forall_ne_some.mpr fun claims renewed => ?_,
    Option.eq_none_iff_forall_ne_some.mpr fun claims fenced => ?_⟩
  · obtain ⟨row, live, _, update⟩ := RunClaims.renew_effect renewed
    have expired := unusable row
      (RunClaims.owned_eq_some.mpr ⟨update.found, update.owner, update.token⟩)
    exact Nat.not_lt_of_le (Nat.le_trans expired present) live
  · obtain ⟨row, live, update⟩ := RunClaims.fenceOwned_effect fenced
    have expired := unusable row
      (RunClaims.owned_eq_some.mpr ⟨update.found, update.owner, update.token⟩)
    exact Nat.not_lt_of_le (Nat.le_trans expired present) live

theorem Unusable.update (unusable : state.Unusable claim)
    (update : RunClaims.OwnedUpdate state.storage.claims other row updated claims)
    (present : state.clock ≤ now)
    (ended : RunClaims.owned state.storage.claims claim = some row → updated.expiresAt ≤ now) :
    Unusable { state.setClaims claims with clock := now } claim := by
  intro found held
  obtain ⟨lookup, owner, token⟩ := RunClaims.owned_eq_some.mp held
  simp only [setClaims] at lookup
  rw [update.get?] at lookup
  split at lookup
  · rename_i same
    obtain rfl := Option.some.inj lookup
    exact ended (RunClaims.owned_eq_some.mpr ⟨by rw [same]; exact update.found,
      update.kept.1.symm.trans owner, update.kept.2.symm.trans token⟩)
  · exact Nat.le_trans (unusable found (RunClaims.owned_eq_some.mpr ⟨lookup, owner, token⟩)) present

theorem Unusable.step (unusable : state.Unusable claim) (known : claim ∈ state.granted)
    (stepped : (claimMachine duration).step state operation after) :
    after.Unusable claim ∧ claim ∈ after.granted := by
  cases operation with
  | select =>
      obtain ⟨present, rfl⟩ := stepped
      exact ⟨fun row held => Nat.le_trans (unusable row held) present, known⟩
  | elsewhere =>
      obtain ⟨present, rfl⟩ := stepped
      exact ⟨fun row held => Nat.le_trans (unusable row held) present, known⟩
  | renew other =>
      obtain ⟨present, claims, renewed, rfl⟩ := stepped
      obtain ⟨row, live, _, update⟩ := RunClaims.renew_effect renewed
      refine ⟨unusable.update update present fun held => ?_, known⟩
      exact absurd live (Nat.not_lt_of_le (Nat.le_trans (unusable row held) present))
  | fenceOwned other =>
      obtain ⟨present, claims, fenced, rfl⟩ := stepped
      obtain ⟨row, live, update⟩ := RunClaims.fenceOwned_effect fenced
      exact ⟨unusable.update update present fun held =>
        Nat.le_trans (unusable row held) present, known⟩
  | release other =>
      obtain ⟨present, claims, released, rfl⟩ := stepped
      obtain ⟨row, updated, ended, update⟩ := RunClaims.release_effect released
      exact ⟨unusable.update update present fun _ => Nat.le_of_eq ended, known⟩
  | take selection other read =>
      obtain ⟨_, _, unused, _, claims, taken, rfl⟩ := stepped
      obtain ⟨_, granted, _, token, _, _, rows⟩ := RunClaims.take_effect taken
      refine ⟨fun row held => ?_, by simp [known]⟩
      obtain ⟨lookup, owner, same⟩ := RunClaims.owned_eq_some.mp held
      simp only [setClaims] at lookup
      rw [rows] at lookup
      split at lookup
      · obtain rfl := Option.some.inj lookup
        -- a fresh token is not the one that the claim was granted
        have listed : claim.token ∈ state.granted.map (·.token) := List.mem_map_of_mem known
        rw [← same, token] at listed
        exact absurd listed unused
      · exact unusable row (RunClaims.owned_eq_some.mpr ⟨lookup, owner, same⟩)

theorem Unusable.run (unusable : state.Unusable claim) (known : claim ∈ state.granted)
    (steps : (claimMachine duration).Run state later) : later.Unusable claim := by
  have both := steps.preserves (fun reached => reached.Unusable claim ∧ claim ∈ reached.granted)
    ⟨unusable, known⟩ fun holds _ stepped => holds.1.step holds.2 stepped
  exact both.1

theorem unusable_of_release
    (stepped : (claimMachine duration).step state (.release claim now) after) :
    after.Unusable claim := by
  obtain ⟨_, claims, released, rfl⟩ := stepped
  obtain ⟨row, updated, ended, update⟩ := RunClaims.release_effect released
  intro found held
  obtain ⟨lookup, _⟩ := RunClaims.owned_eq_some.mp held
  simp only [setClaims] at lookup
  rw [update.get?, if_pos rfl] at lookup
  obtain rfl := Option.some.inj lookup
  exact Nat.le_of_eq ended

/-- Every accepted write counts the version of its claim row up. -/
theorem version_increases (stepped : (claimMachine duration).step state operation after)
    (found : state.storage.claims.get? runId = some row) :
    ∃ updated, after.storage.claims.get? runId = some updated ∧
      (updated = row ∨ row.version < updated.version) := by
  have updated : ∀ {claim : RunClaim} {before next : RunWorkerClaim}
    {claims : Table String RunWorkerClaim},
      RunClaims.OwnedUpdate state.storage.claims claim before next claims →
      ∃ updated, claims.get? runId = some updated ∧
          (updated = row ∨ row.version < updated.version) := by
    intro claim before next claims update
    rw [update.get?]
    split
    · rename_i same
      obtain rfl : row = before :=
        Option.some.inj (found.symm.trans (by rw [same]; exact update.found))
      exact ⟨next, rfl, .inr (by rw [update.version]; exact Nat.lt_succ_self _)⟩
    · exact ⟨row, found, .inl rfl⟩
  cases operation with
  | select =>
      obtain ⟨_, rfl⟩ := stepped
      exact ⟨row, found, .inl rfl⟩
  | elsewhere =>
      obtain ⟨_, rfl⟩ := stepped
      exact ⟨row, found, .inl rfl⟩
  | renew =>
      obtain ⟨_, claims, renewed, rfl⟩ := stepped
      obtain ⟨_, _, _, update⟩ := RunClaims.renew_effect renewed
      exact updated update
  | fenceOwned =>
      obtain ⟨_, claims, fenced, rfl⟩ := stepped
      obtain ⟨_, _, update⟩ := RunClaims.fenceOwned_effect fenced
      exact updated update
  | release =>
      obtain ⟨_, claims, released, rfl⟩ := stepped
      obtain ⟨_, _, _, update⟩ := RunClaims.release_effect released
      exact updated update
  | take selection claim read =>
      obtain ⟨_, _, _, _, claims, taken, rfl⟩ := stepped
      obtain ⟨_, granted, _, _, _, version, rows⟩ := RunClaims.take_effect taken
      simp only [setClaims, rows]
      split
      · rename_i same
        exact ⟨granted, rfl, .inr (by rw [version row (same ▸ found)]; exact Nat.lt_succ_self _)⟩
      · exact ⟨row, found, .inl rfl⟩

end ClaimedQueue

/-- Claims of one run exclude each other: an older one is refused for good once
a newer one was granted, only one passes the fence, an expired or released one
stays refused, and a run is only taken from a claim that had expired when its
taker read the clock. -/
theorem run_claims_exclude {duration : Time} {state : ClaimedQueue}
    (reached : (claimMachine duration).Reachable state) :
    (∀ older newer, [older, newer].Sublist state.granted → older.runId = newer.runId → ∀ now,
      RunClaims.renew state.storage.claims duration older now = none ∧
        RunClaims.fenceOwned state.storage.claims older now = none ∧
        RunClaims.release state.storage.claims older now = none) ∧
    (∀ left ∈ state.granted, ∀ right ∈ state.granted, left.runId = right.runId → ∀ now,
      RunClaims.fenceOwned state.storage.claims left now ≠ none →
      RunClaims.fenceOwned state.storage.claims right now ≠ none → left = right) ∧
    (∀ claim ∈ state.granted, state.Unusable claim →
      ∀ later, (claimMachine duration).Run state later →
      ∀ now, later.clock ≤ now → RunClaims.renew later.storage.claims duration claim now = none ∧
        RunClaims.fenceOwned later.storage.claims claim now = none) ∧
    ∀ operation after, (claimMachine duration).step state operation after →
      (∀ runId row, state.storage.claims.get? runId = some row →
        ∃ updated, after.storage.claims.get? runId = some updated ∧
          (updated = row ∨ row.version < updated.version)) ∧
      (∀ claim now, operation = .release claim now → after.Unusable claim) ∧
      ∀ selection claim read, operation = .take selection claim read →
        ∀ row, state.storage.claims.get? claim.runId = some row →
          row.expiresAt ≤ selection.now := by
  have tokens := ClaimedQueue.TokensFresh.reachable reached
  refine ⟨?_, ?_, ?_, ?_⟩
  · intro older newer order same now
    have lost : ∀ row, RunClaims.owned state.storage.claims older ≠ some row := by
      intro row held
      obtain ⟨found, _, token⟩ := RunClaims.owned_eq_some.mp held
      exact tokens.superseded order same found token
    have unowned : RunClaims.owned state.storage.claims older = none :=
      Option.eq_none_iff_forall_ne_some.mpr lost
    simp [RunClaims.renew, RunClaims.fenceOwned, RunClaims.release, unowned]
  · intro left leftGranted right rightGranted same now leftFenced rightFenced
    obtain ⟨_, leftFenced⟩ := Option.ne_none_iff_exists'.mp leftFenced
    obtain ⟨_, rightFenced⟩ := Option.ne_none_iff_exists'.mp rightFenced
    obtain ⟨row, _, first⟩ := RunClaims.fenceOwned_effect leftFenced
    obtain ⟨again, _, second⟩ := RunClaims.fenceOwned_effect rightFenced
    obtain rfl : row = again :=
      Option.some.inj (first.found.symm.trans (by rw [same]; exact second.found))
    exact List.inj_on_of_nodup_map tokens.fresh leftGranted rightGranted
      (first.token.symm.trans second.token)
  · intro claim granted unusable later steps now present
    exact (unusable.run granted steps).refused present
  · intro operation after stepped
    refine ⟨fun runId row found => ClaimedQueue.version_increases stepped found, ?_, ?_⟩
    · rintro claim now rfl
      exact ClaimedQueue.unusable_of_release stepped
    · rintro selection claim read rfl
      obtain ⟨_, _, _, _, _, taken, _⟩ := stepped
      exact (RunClaims.take_effect taken).1

namespace ApprovedWrite

/-- A queue with one executing run, read at the first instant and again when a
whole lease has passed. -/
def readTwice : ClaimedQueue where
  storage :=
    { runs := { entries := [("run", database .required)], nodup := by simp }, claims := .empty }
  clock := seconds 6
  selections := [⟨0, [("run", .advance)]⟩, ⟨seconds 6, [("run", .advance)]⟩]
  granted := []

theorem readTwice_reachable : (claimMachine (seconds 5)).Reachable readTwice := by
  let fresh : ClaimedQueue := { readTwice with clock := 0, selections := [] }
  let once : ClaimedQueue := { readTwice with clock := 0, selections := [⟨0, [("run", .advance)]⟩] }
  have start : (claimMachine (seconds 5)).Reachable fresh := .start ⟨rfl, rfl, rfl⟩
  have first : (claimMachine (seconds 5)).step fresh (.select 0) once := ⟨Nat.le_refl _, by decide⟩
  have second : (claimMachine (seconds 5)).step once (.select (seconds 6)) readTwice :=
    ⟨Nat.zero_le _, by decide⟩
  exact (start.next _ first).next _ second

def granted (token : String) (expiresAt : Time) : RunClaim where
  runId := "run"
  owner := "worker"
  token
  expiresAt
  purpose := .advance

def taken (token : String) (now : Time) (version : Nat) : RunWorkerClaim where
  owner := "worker"
  token
  claimedAt := now
  expiresAt := now + seconds 5
  availableAt := now
  version

/-- The queue once the first reading has taken the run. -/
def takenOnce : ClaimedQueue :=
  { readTwice.setClaims { entries := [("run", taken "mine" 0 1)], nodup := by simp } with
    granted := [granted "mine" (seconds 5)] }

/-- The queue once the second reading has taken it over. -/
def takenTwice : ClaimedQueue :=
  { readTwice.setClaims { entries := [("run", taken "yours" (seconds 6) 2)], nodup := by simp } with
    granted := [granted "mine" (seconds 5), granted "yours" (seconds 11)] }

theorem takenOnce_step : (claimMachine (seconds 5)).step readTwice
    (.take ⟨0, [("run", .advance)]⟩ (granted "mine" (seconds 5)) none) takenOnce :=
  ⟨by decide, by decide, by decide, by decide, takenOnce.storage.claims, by decide, rfl⟩

theorem takenTwice_step : (claimMachine (seconds 5)).step takenOnce
    (.take ⟨seconds 6, [("run", .advance)]⟩ (granted "yours" (seconds 11)) (some 1)) takenTwice :=
  ⟨by decide, by decide, by decide, by decide, takenTwice.storage.claims, by decide, rfl⟩

/-- Two calls that read the queue before either took the run are both handed
it when the first of them needs a whole lease to take it. -/
theorem run_handed_to_two_workers :
    ¬ ∀ (duration : Time) (state middle after : ClaimedQueue) (first second : QueueSelection)
      (mine yours : RunClaim) (read again : Option Nat), seconds 5 ≤ duration →
      duration ≤ seconds 600 →
      (claimMachine duration).Reachable state → first ∈ state.selections →
      second ∈ state.selections →
      (claimMachine duration).step state (.take first mine read) middle →
      (claimMachine duration).step middle (.take second yours again) after →
        mine.runId ≠ yours.runId := by
  intro excluded
  exact excluded (seconds 5) readTwice takenOnce takenTwice _ _ _ _ none (some 1)
    (Nat.le_refl _) (by decide)
    readTwice_reachable (by decide) (by decide) takenOnce_step takenTwice_step rfl

theorem run_claims_exclude_takenTwice :
    RunClaims.renew takenTwice.storage.claims (seconds 5) (granted "mine" (seconds 5))
      (seconds 6) = none ∧
      RunClaims.fenceOwned takenTwice.storage.claims (granted "mine" (seconds 5))
        (seconds 6) = none ∧
      RunClaims.release takenTwice.storage.claims (granted "mine" (seconds 5))
        (seconds 6) = none := by
  have reached : (claimMachine (seconds 5)).Reachable takenTwice :=
    (readTwice_reachable.next _ takenOnce_step).next _ takenTwice_step
  exact (run_claims_exclude reached).1 _ _ (List.Sublist.refl _) rfl (seconds 6)

end ApprovedWrite

end MarketingAgents
