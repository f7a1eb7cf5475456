import MarketingAgents.Library.Keyset
import MarketingAgents.Services.CursorLengths

namespace MarketingAgents

open Library

/-! # Walking through pages

The lists of runs and of a run's artifacts, as their services read one page of
the stored rows, and the walk of a client that follows the cursors while the rows
change.
-/

/-- One page with the cursor of the next one. -/
structure ResourcePage (Row : Type) where
  items : List Row
  nextCursor : Option String

/-- How a list service finds, checks and continues its pages. -/
structure ListService (Query Row Boundary κ : Type) where
  validate : Query → Except Rejection Unit
  decode : Query → Except Rejection (Option Boundary)
  /-- Whether there is what the list belongs to. -/
  found : Except Rejection Unit
  /-- Whether a stored row can still be read. -/
  hydrate : Row → Except Rejection Unit
  encode : Query → Row → Except Rejection String
  continued : Query → String → Query
  matching : Query → Row → Bool
  limit : Query → Nat
  boundaryOf : Row → Boundary
  place : Boundary → κ
  /-- What the service checks again of the rows that the store returned. -/
  check : Query → Option Boundary → List Row → Bool
  corrupt : String
  message : String

namespace ListService

section

variable {Query Row Boundary κ : Type} [LinearOrder κ] (service : ListService Query Row Boundary κ)

def key (row : Row) : κ := service.place (service.boundaryOf row)

/-- The matching rows behind a boundary, in the order of the list. -/
def select (rows : List Row) (query : Query) (boundary : Option Boundary)
    (limit : Nat) : List Row :=
  (Keyset.remaining service.key (boundary.map service.place)
    (rows.filter (service.matching query))).take limit

/-- One row more than the page has is read, to see whether there is another page. -/
def list (rows : List Row) (query : Query) : Except Rejection (ResourcePage Row) := do
  service.validate query
  let boundary ← service.decode query
  service.found
  let stored := service.select rows query boundary (service.limit query + 1)
  forM stored service.hydrate
  require (service.check query boundary stored) service.corrupt service.message
  let items := stored.take (service.limit query)
  let nextCursor ← (if service.limit query < stored.length then items.getLast? else none).mapM
    (service.encode query)
  return { items, nextCursor }

/-- Follow the cursors through successive states of the rows, to the end where it is reached. -/
def walk : Query → List (List Row) → Except Rejection (List Row × Bool)
  | _, [] => .ok ([], false)
  | query, rows :: later => do
      let page ← service.list rows query
      match page.nextCursor with
      | none => return (page.items, true)
      | some cursor => do
          let rest ← walk (service.continued query cursor) later
          return (page.items ++ rest.1, rest.2)

/-- What a list relies on: its rows have different keys, and their cursors are read back. -/
structure Lawful (served : Query → Prop) (known : Row → Prop) : Prop where
  positive : ∀ query, served query → 0 < service.limit query
  accepted : ∀ query, served query → service.validate query = .ok ()
  roundtrip : ∀ query row, served query → known row → service.matching query row = true →
    ∃ cursor, service.encode query row = .ok cursor ∧ served (service.continued query cursor) ∧
      service.decode (service.continued query cursor) = .ok (some (service.boundaryOf row))
  matching : ∀ query cursor row, service.matching (service.continued query cursor) row =
    service.matching query row
  limit : ∀ query cursor, service.limit (service.continued query cursor) = service.limit query
  check : ∀ query boundary stored, served query →
    (∀ row ∈ stored, known row ∧ service.matching query row = true) →
    stored.Pairwise (fun left right => service.key left < service.key right) →
    (∀ row ∈ stored, Keyset.Behind (boundary.map service.place) (service.key row)) →
    service.check query boundary stored = true

/-- A state of the rows that the store can be in. -/
structure Rows (known : Row → Prop) (rows : List Row) : Prop where
  known : ∀ row ∈ rows, known row
  unique : (rows.map service.key).Nodup

end

section

variable {Query Row Boundary κ : Type} [LinearOrder κ] {service : ListService Query Row Boundary κ}
  {served : Query → Prop}
  {known : Row → Prop} {query : Query} {rows : List Row} {boundary : Option Boundary}

omit [LinearOrder κ] in
theorem Rows.filter (valid : service.Rows known rows) :
    (∀ row ∈ rows.filter (service.matching query), known row ∧ service.matching query row = true) ∧
      ((rows.filter (service.matching query)).map service.key).Nodup := by
  refine ⟨fun row member => ?_, valid.unique.sublist (List.filter_sublist.map _)⟩
  obtain ⟨listed, matches'⟩ := List.mem_filter.mp member
  exact ⟨valid.known row listed, matches'⟩

theorem hydrate_all {hydrate : Row → Except Rejection Unit} {stored : List Row}
    (live : ∀ row ∈ stored, hydrate row = .ok ()) : forM stored hydrate = .ok () := by
  induction stored with
  | nil => rfl
  | cons row rest ih =>
      obtain ⟨first, later⟩ := List.forall_mem_cons.mp live
      rw [List.forM_cons]
      exact bind_ok.mpr ⟨(), first, ih later⟩

/-- A page is the keyset page of the matching rows, and its cursor leads to the place behind it. -/
theorem Lawful.list_eq (lawful : service.Lawful served known) (good : served query)
    (valid : service.Rows known rows)
    (decoded : service.decode query = .ok boundary) (exists_ : service.found = .ok ())
    (live : ∀ row ∈ service.select rows query boundary (service.limit query + 1),
      service.hydrate row = .ok ()) :
    ∃ page, service.list rows query = .ok page ∧
      page.items = (Keyset.page service.key (service.limit query) (boundary.map service.place)
        (rows.filter (service.matching query))).items ∧
      Option.Rel (fun cursor place => served (service.continued query cursor) ∧ ∃ last,
          service.decode (service.continued query cursor) = .ok (some last) ∧
            service.place last = place)
        page.nextCursor
        (Keyset.page service.key (service.limit query) (boundary.map service.place)
          (rows.filter (service.matching query))).next := by
  obtain ⟨knownRows, unique⟩ : (∀ row ∈ rows.filter (service.matching query), known row ∧
    service.matching query row = true) ∧
      ((rows.filter (service.matching query)).map service.key).Nodup := valid.filter
  have stored : ∀ row ∈ service.select rows query boundary (service.limit query + 1),
      row ∈ rows.filter (service.matching query) ∧
        Keyset.Behind (boundary.map service.place) (service.key row) :=
    fun row member => Keyset.mem_remaining.mp (List.mem_of_mem_take member)
  have checked : service.check query boundary
    (service.select rows query boundary (service.limit query + 1)) = true :=
    lawful.check query boundary _ good (fun row member => knownRows row (stored row member).1)
      ((Keyset.remaining_pairwise unique).sublist (List.take_sublist _ _)) fun row member =>
        (stored row member).2
  by_cases more : service.limit query <
    (service.select rows query boundary (service.limit query + 1)).length
  · have nonempty : (service.select rows query boundary (service.limit query + 1)).take
        (service.limit query) ≠ [] := by
      have positive := lawful.positive query good
      intro empty
      rcases List.take_eq_nil_iff.mp empty with zero | none
      · omega
      · rw [none] at more
        exact absurd more (by simp)
    obtain ⟨last, found⟩ := Option.ne_none_iff_exists'.mp (mt List.getLast?_eq_none_iff.mp nonempty)
    have member := List.mem_of_mem_take (List.mem_of_getLast? found)
    obtain ⟨knownLast, matchesLast⟩ := knownRows last (stored last member).1
    obtain ⟨cursor, encoded, next, read⟩ := lawful.roundtrip query last good knownLast matchesLast
    have continued : (if service.limit query <
      (service.select rows query boundary (service.limit query + 1)).length then
        ((service.select rows query boundary (service.limit query + 1)).take
          (service.limit query)).getLast?
        else none).mapM (service.encode query) = .ok (some cursor) := by
      rw [if_pos more, found]
      exact optional_mapM_ok.mpr (.some encoded)
    refine ⟨⟨_, some cursor⟩,
      bind_ok.mpr ⟨(), lawful.accepted query good, bind_ok.mpr ⟨boundary, decoded,
      bind_ok.mpr ⟨(), exists_,
        bind_ok.mpr ⟨(), hydrate_all live, bind_ok.mpr
          ⟨(), require_ok.mpr checked, bind_ok.mpr ⟨some cursor, continued, rfl⟩⟩⟩⟩⟩⟩, rfl, ?_⟩
    rw [select] at more found
    rw [Keyset.page, if_pos more, found]
    exact .some ⟨next, _, read, rfl⟩
  · have ended : (if service.limit query <
      (service.select rows query boundary (service.limit query + 1)).length then
        ((service.select rows query boundary (service.limit query + 1)).take
          (service.limit query)).getLast?
        else none).mapM (service.encode query) = .ok none := by
      rw [if_neg more]
      rfl
    refine ⟨⟨_, none⟩, bind_ok.mpr ⟨(), lawful.accepted query good, bind_ok.mpr ⟨boundary, decoded,
      bind_ok.mpr ⟨(), exists_, bind_ok.mpr ⟨(), hydrate_all live,
        bind_ok.mpr ⟨(), require_ok.mpr checked, bind_ok.mpr ⟨none, ended, rfl⟩⟩⟩⟩⟩⟩, rfl, ?_⟩
    rw [select] at more
    rw [Keyset.page, if_neg more]
    exact .none

/-- All matching rows of a state can be read. -/
def Live (service : ListService Query Row Boundary κ) (query : Query) (rows : List Row) : Prop :=
  ∀ row ∈ rows, service.matching query row = true → service.hydrate row = .ok ()

theorem Live.selected (live : service.Live query rows) :
    ∀ row ∈ service.select rows query boundary (service.limit query + 1),
      service.hydrate row = .ok () := by
  intro row member
  obtain ⟨stored, matches'⟩ :=
    List.mem_filter.mp (Keyset.mem_remaining.mp (List.mem_of_mem_take member)).1
  exact live row stored matches'

/-- A walk along the cursors is the walk along the places. -/
theorem Lawful.walk_eq (lawful : service.Lawful served known) {states : List (List Row)}
    (good : served query) (valid : ∀ rows ∈ states, service.Rows known rows)
    (live : ∀ rows ∈ states, service.Live query rows)
    (exists_ : service.found = .ok ()) (decoded : service.decode query = .ok boundary) :
    service.walk query states =
      .ok (Keyset.walk service.key (service.limit query) (boundary.map service.place)
      (states.map fun rows => rows.filter (service.matching query))) := by
  induction states generalizing query boundary with
  | nil => rfl
  | cons rows later ih =>
      obtain ⟨first, others⟩ := List.forall_mem_cons.mp valid
      obtain ⟨readable, laterLive⟩ := List.forall_mem_cons.mp live
      obtain ⟨page, listed, items, next⟩ :=
        lawful.list_eq good first decoded exists_ readable.selected
      rw [walk, List.map_cons, Keyset.walk]
      refine bind_ok.mpr ⟨page, listed, ?_⟩
      revert next
      generalize (Keyset.page service.key (service.limit query) (boundary.map service.place)
        (rows.filter (service.matching query))).next = place
      generalize page.nextCursor = cursor
      intro next
      cases next with
      | none =>
          rw [items]
          rfl
      | @some cursor place related =>
          obtain ⟨goodNext, last, read, rfl⟩ := related
          have same : service.matching (service.continued query cursor) = service.matching query :=
            funext (lawful.matching query cursor)
          have stays : ∀ rows ∈ later, service.Live (service.continued query cursor) rows := by
            intro rows member row stored matches'
            exact laterLive rows member row stored (same ▸ matches')
          have rest := ih goodNext others stays read
          rw [lawful.limit, same] at rest
          refine bind_ok.mpr ⟨_, rest, ?_⟩
          rw [items]
          rfl

/-- What a client sees that follows the cursors while the rows change: rows in the order of the list
and none twice, and at the end every place that was taken on all pages. -/
structure Sees (service : ListService Query Row Boundary κ) (query : Query)
    (states : List (List Row)) (seen : List Row) (finished : Bool) : Prop where
  ordered : seen.Pairwise fun left right => service.key left < service.key right
  found : ∀ row ∈ seen, service.matching query row = true ∧ ∃ rows ∈ states, row ∈ rows
  complete : finished = true → ∀ place,
    (∀ rows ∈ states, ∃ row ∈ rows, service.matching query row = true ∧
    service.key row = place) → ∃ row ∈ seen, service.key row = place

end

end ListService

/-- What a list of runs reads of a run and its work item.  It is intact if it can be read back with
its history. -/
structure RunRow where
  id : String
  createdAt : UtcTime
  state : RunState
  instanceId : String
  workflowId : String
  intact : Bool
deriving DecidableEq

/-- An artifact keeps its row when its content is erased.  It is intact if it can be read back with
its lineage and the step that produced it. -/
structure ArtifactRow where
  id : String
  createdAt : UtcTime
  runId : String
  erased : Bool
  intact : Bool
deriving DecidableEq

def UtcTime.instant (time : UtcTime) : Nat := time.val.toInstant

/-- Creation times with identities, in the order of pairs. -/
def creationPlace (boundary : CreationBoundary) : ℕ ×ₗ String :=
  toLex (boundary.createdAt.instant, boundary.id)

/-- The service's own check of a page: its order, that nothing repeats and that it is behind the
boundary. -/
def pageOrdered {κ : Type} [LinearOrder κ] (boundary : Option κ) (keys : List κ) : Bool :=
  decide (keys.Pairwise (· ≤ ·)) && decide keys.Nodup && keys.all fun key =>
    Keyset.Behind boundary key

def RunFilters.matching (query : RunFilters) (row : RunRow) : Bool :=
  query.state.all (row.state = ·) && query.instanceId.all (row.instanceId = ·) &&
    query.workflowId.all (row.workflowId = ·) &&
    query.createdAtFrom.all (fun start => start.instant ≤ row.createdAt.instant) &&
    query.createdAtTo.all (fun finish => row.createdAt.instant ≤ finish.instant)

section

variable {φ : Type} (support : CursorSupport φ)

/-- Runs, the newest first. -/
def runList : ListService RunListQuery RunRow CreationBoundary (ℕ ×ₗ String)ᵒᵈ where
  validate query := query.validate
  decode := decodeRunCursor support
  found := .ok ()
  hydrate row := require row.intact "runtime_record_corrupt"
    "runtime resources could not be validated"
  encode query row := encodeRunCursor support ⟨row.createdAt, row.id⟩ query.toRunFilters
  continued query cursor := { query with cursor := some cursor }
  matching query row := query.toRunFilters.matching row
  limit query := query.limit.toNat
  boundaryOf row := ⟨row.createdAt, row.id⟩
  place boundary := OrderDual.toDual (creationPlace boundary)
  check query boundary stored :=
    pageOrdered (boundary.map fun boundary => OrderDual.toDual (creationPlace boundary))
      ((stored.take query.limit.toNat).map fun row =>
        OrderDual.toDual (creationPlace ⟨row.createdAt, row.id⟩)) &&
      (stored.take query.limit.toNat).all query.toRunFilters.matching
  corrupt := "runtime_record_corrupt"
  message := "runtime resources could not be validated"

end

section

variable {φ : Type} {support : CursorSupport φ}

/-- A row of the list of runs. -/
def RunRow.Known (row : RunRow) : Prop := requireId row.id "run ID" = .ok ()

def ArtifactRow.Known (row : ArtifactRow) : Prop := requireId row.id "artifact ID" = .ok ()

end

namespace OneRun

def readWhole (text : String) : Option (UtcTime × Option Int) :=
  match ZonedDatetime.fromIsoformat text with
  | some value =>
      if valid : value.datetime.Valid then
        some (⟨value.datetime, valid⟩, value.offset.map fun minutes => minutes * 60000000)
      else none
  | none => none

/-- One digest stands for all. -/
def support : CursorSupport Bool where
  text := acuteSupport
  numbers := halfSupport
  sha256 _ := String.ofList (List.replicate 64 'a')
  loads := jsonLoads halfSupport
  floatIsOne _ := false
  fromisoformat := readWhole

theorem readWhole_isoformat (time : UtcTime) :
    readWhole time.isoformatMicroseconds = some (time, some 0) := by
  have valid : (⟨time.val, some 0⟩ : ZonedDatetime).datetime.Valid := time.property
  have read := ZonedDatetime.fromIsoformat_isoformat valid (by rintro _ ⟨⟩; decide)
  rw [readWhole, UtcTime.isoformatMicroseconds, read]
  exact dif_pos time.property

theorem lawful : support.Lawful where
  keeps := acuteSupport_keepsAscii
  digits := show 1 ≤ 4300 by decide
  hexadecimal _ := show (String.ofList (List.replicate 64 'a')).toList.all hexadecimal = true by
    decide +kernel
  loads _ _ _ := rfl
  fromisoformat time := by simp only [support, readWhole_isoformat]

theorem full : support.FullDigests :=
  fun _ => show (String.ofList (List.replicate 64 'a')).toList.length = 64 by decide +kernel

def query : RunListQuery where
  state := none
  instanceId := none
  workflowId := none
  createdAtFrom := none
  createdAtTo := none
  cursor := none
  limit := 1

theorem valid : query.validate = .ok () := by decide

def noon : Datetime := ⟨2026, 1, 1, 12, 0, 0, 0⟩

theorem noon_valid : noon.Valid := by decide

def row : RunRow := ⟨"run-1", ⟨noon, noon_valid⟩, .completed, "instance-1", "workflow-1", true⟩

theorem known : (runList support).Rows RunRow.Known [row] := by
  refine ⟨?_, List.nodup_singleton _⟩
  rw [List.forall_mem_singleton]
  exact show requireId "run-1" "run ID" = .ok () by decide +kernel

def artifact (id : String) (erased : Bool) : ArtifactRow :=
  ⟨id, ⟨noon, noon_valid⟩, "run-1", erased, true⟩

end OneRun

end MarketingAgents
