import MarketingAgents.Security.AuditedConfigurations
import MarketingAgents.Services.ScheduleCursors

namespace MarketingAgents

open Library
open Library.JsonText

/-! # What page cursors guarantee

Every list hands out cursors that it reads back, reads a cursor that it would
not hand out only in another spelling, and refuses those of other filters, of
other runs and of the other lists.
-/

/-- The cursors of one list: how they are handed out and read under a query. -/
structure PageCursors (Query Boundary : Type) where
  encode : Query → Boundary → Except Rejection String
  decode : Query → String → Except Rejection (Option Boundary)

section

variable {φ : Type} (support : CursorSupport φ)

def runCursors : PageCursors RunListQuery CreationBoundary where
  encode query boundary := encodeRunCursor support boundary query.toRunFilters
  decode query cursor := decodeRunCursor support { query with cursor := some cursor }

def timelineCursors : PageCursors (String × RunTimelineQuery) Int where
  encode query sequence := encodeTimelineCursor support query.1 sequence
  decode query cursor :=
    (decodeTimelineCursor support query.1 { query.2 with cursor := some cursor }).map some

def artifactCursors : PageCursors ArtifactListQuery CreationBoundary where
  encode query boundary := encodeArtifactCursor support boundary query.runId
  decode query cursor := decodeArtifactCursor support { query with cursor := some cursor }

def auditCursors : PageCursors AuditListQuery AuditBoundary where
  encode query boundary := encodeAuditCursor support boundary query.toAuditFilters
  decode query cursor := decodeAuditCursor support { query with cursor := some cursor }

/-- The pages of schedules and of their occurrences, each under its scope. -/
def scheduleCursors : PageCursors (String × SchedulePageQuery) (List String) where
  encode query key := encodeScheduleCursor support query.1 key
  decode query cursor := decodeScheduleCursor support { query.2 with cursor := some cursor } query.1

/-- The guarantees of one list for the queries it serves and the items it ends a page with:
`spelling` tells which cursors are spelled as they are handed out. -/
structure PageCursors.Guarantees {Query Boundary : Type} (cursors : PageCursors Query Boundary)
    (served : Query → Prop) (item : Query → Boundary → Prop) (spelling : String → Prop)
    (apart : Query → Query → Prop) : Prop where
  roundtrip : ∀ query boundary, served query → item query boundary →
    ∃ cursor, cursors.encode query boundary = .ok cursor ∧
      cursors.decode query cursor = .ok (some boundary)
  exact : ∀ query cursor boundary, served query →
    cursors.decode query cursor = .ok (some boundary) →
    (cursors.encode query boundary = .ok cursor ↔ spelling cursor)
  refused : ∀ query other boundary cursor, served query → served other → apart query other →
    item query boundary →
    cursors.encode query boundary = .ok cursor → ∀ result, cursors.decode other cursor ≠ .ok result

/-- Integers that can be written and read. -/
def ShortInteger (number : Int) : Prop :=
  (Nat.toDigits 10 number.natAbs).length ≤ support.numbers.maxStrDigits

variable {support}

theorem map_some_ok {α : Type} {result : Except Rejection α} {value : α} :
    (do let boundary ← result; return some boundary) =
      (.ok (some value) : Except Rejection (Option α)) ↔
      result = .ok value := by
  simp only [bind_ok, pure_ok, Option.some.injEq]
  constructor
  · rintro ⟨_, same, rfl⟩
    exact same
  · intro same
    exact ⟨_, same, rfl⟩

theorem map_some_none {α : Type} {result : Except Rejection α} :
    (do let boundary ← result; return some boundary) ≠
    (.ok none : Except Rejection (Option α)) := by
  intro same
  obtain ⟨_, _, impossible⟩ := bind_ok.mp same
  cases pure_ok.mp impossible

theorem map_ok {α β : Type} {result : Except Rejection α} {transform : α → β} {value : β} :
    result.map transform = .ok value ↔ ∃ found, result = .ok found ∧ transform found = value := by
  cases result <;> simp [Except.map]

theorem written_int {number : Int} (short : ShortInteger support number) :
    (PythonValue.int number : PythonValue φ).Written support.text support.numbers := by
  refine written_iff.mpr ⟨.int number, .scalar (.number (String.ofList (intText number))), rfl, ?_⟩
  simp only [PythonValue.document, bind_ok, require_ok]
  exact ⟨(), short, rfl⟩

theorem written_version (lawful : support.Lawful) :
    (PythonValue.int 1 : PythonValue φ).Written support.text support.numbers :=
  written_int lawful.digits

theorem encodePayload_exists (lawful : support.Lawful) (cursorPrefix : String)
    (plain : PlainFields support fields)
    (each : ∀ field ∈ fields, field.2.Written support.text support.numbers) :
    ∃ cursor, encodePayload support cursorPrefix (.record fields) = .ok cursor := by
  obtain ⟨bytes, written⟩ := written_record lawful.keeps plain.names each
  exact ⟨_, encodePayload_ok.mpr ⟨bytes, written, rfl⟩⟩

section

variable {kind : CursorKind} {endpoint fieldName : String} {fingerprint : Except Rejection String}
  {cursor digest : String} {boundary : CreationBoundary}

theorem creation_roundtrip (kind : CursorKind) (endpoint : String) (lawful : support.Lawful)
    (names : kind.names = creationNames) (endpointPlain : PlainText endpoint)
    (digestPlain : PlainText digest) (stable : requireId boundary.id fieldName = .ok ()) :
    ∃ cursor, encodePayload support kind.cursorPrefix
      (.record (creationPayload endpoint digest boundary)) = .ok cursor ∧
      readCursor support kind endpoint (creationBoundary support (.ok digest) fieldName) cursor =
        .ok boundary := by
  have writes := creation_writes lawful names endpointPlain digestPlain stable
  obtain ⟨cursor, encoded⟩ := encodePayload_exists lawful kind.cursorPrefix writes.plain (by
    simp [creationPayload, (writes_str _).written, written_version lawful])
  exact ⟨cursor, encoded, writes.roundtrip lawful encoded⟩

theorem creation_exact (lawful : support.Lawful) (names : kind.names = creationNames)
    (endpointPlain : PlainText endpoint) (digestPlain : PlainText digest)
    (accepted : readCursor support kind endpoint
      (creationBoundary support (.ok digest) fieldName) cursor = .ok boundary) :
    encodePayload support kind.cursorPrefix (.record (creationPayload endpoint digest boundary)) =
      .ok cursor ↔
      CanonicalPayload support kind.cursorPrefix cursor := by
  obtain ⟨_, _, _, _, taken⟩ := readCursor_ok.mp accepted
  obtain ⟨_, _, _, _, _, _, _, stable⟩ := creationBoundary_eq_some.mp taken
  exact (creation_writes lawful names endpointPlain digestPlain stable).exact lawful accepted

theorem creation_accepted (lawful : support.Lawful)
    (endpointPlain : PlainText endpoint) (digestPlain : PlainText digest)
    (idPlain : PlainText boundary.id) (encoded : encodePayload support kind.cursorPrefix
      (.record (creationPayload endpoint digest boundary)) = .ok cursor)
    (accepted : readCursor support kind otherEndpoint
      (creationBoundary support fingerprint otherName) cursor = .ok other) :
    otherEndpoint = endpoint ∧ fingerprint = .ok digest := by
  obtain ⟨decoded, found, named, taken⟩ := encodePayload_accepted lawful
    (creationPayload_plain lawful endpointPlain digestPlain idPlain) encoded accepted
  simp only [creationPayload, List.forall_mem_cons, List.not_mem_nil, false_implies, implies_true,
    and_true] at found
  obtain ⟨_, endpointed, filtered, _⟩ := found
  obtain ⟨expected, _, hashed, matched, _⟩ := creationBoundary_eq_some.mp taken
  rw [string?_eq_some, endpointed, Option.some.injEq, PythonValue.str.injEq] at named
  rw [filtered, Option.some.injEq, PythonValue.str.injEq] at matched
  exact ⟨named.symm, matched ▸ hashed⟩

end

theorem runCursors_guarantees (lawful : support.Lawful) :
    (runCursors support).Guarantees (fun query => query.validate = .ok ())
      (fun _ boundary => requireId boundary.id "run ID" = .ok ())
        (CanonicalPayload support runCursor.cursorPrefix)
      (fun query other => support.CollisionFree ∧ query.toRunFilters ≠ other.toRunFilters) where
  roundtrip query boundary _ stable := by
    obtain ⟨digest, hashed⟩ := runFilterFingerprint_exists lawful query.toRunFilters
    obtain ⟨cursor, encoded, read⟩ := creation_roundtrip runCursor "runs-v1" lawful rfl
      (plain_of_all (by decide)) (filterFingerprint_plain lawful hashed)
        (requireId_ok "run cursor ID" stable)
    refine ⟨cursor, ?_, ?_⟩
    · simp only [runCursors, encodeRunCursor, bind_ok]
      exact ⟨digest, hashed, encoded⟩
    · simp only [runCursors, decodeRunCursor, map_some_ok, hashed, read]
  exact query cursor boundary _ accepted := by
    obtain ⟨digest, hashed⟩ := runFilterFingerprint_exists lawful query.toRunFilters
    simp only [runCursors, decodeRunCursor, map_some_ok, hashed] at accepted
    simp only [runCursors, encodeRunCursor, bind_ok, hashed, Except.ok.injEq, exists_eq_left']
    exact creation_exact lawful rfl (plain_of_all (by decide))
      (filterFingerprint_plain lawful hashed) accepted
  refused query other boundary cursor valid otherValid := by
    rintro ⟨free, different⟩ stable encoded result accepted
    simp only [runCursors, encodeRunCursor, bind_ok] at encoded
    obtain ⟨digest, hashed, encoded⟩ := encoded
    cases result with
    | none => exact map_some_none accepted
    | some found =>
        simp only [runCursors, decodeRunCursor, map_some_ok] at accepted
        have same := (creation_accepted lawful (plain_of_all (by decide))
          (filterFingerprint_plain lawful hashed) (requireId_plain stable).1 encoded accepted).2
        exact different (runFilterFingerprint_injective lawful free valid otherValid hashed same)

theorem artifactFilterFingerprint_exists (lawful : support.Lawful) (runId : String) :
    ∃ fingerprint, artifactFilterFingerprint support runId = .ok fingerprint := by
  refine filterFingerprint_exists lawful ARTIFACT_FILTER_DOMAIN
    (show PlainNames ["run_id"] by decide) ?_
  simp [(writes_str runId).written]

theorem artifactQuery_plain {query : ArtifactListQuery} (valid : query.validate = .ok ()) :
    PlainText query.runId ∧ PlainText (artifactEndpoint query.runId) := by
  simp only [ArtifactListQuery.validate, bind_ok] at valid
  obtain ⟨_, stable, _⟩ := valid
  have plain := (requireId_plain stable).1
  exact ⟨plain, plainText_append (plain_of_all (by decide)) plain⟩

theorem artifactCursors_guarantees (lawful : support.Lawful) :
    (artifactCursors support).Guarantees (fun query => query.validate = .ok ())
      (fun _ boundary => requireId boundary.id "artifact ID" = .ok ())
        (CanonicalPayload support artifactCursor.cursorPrefix)
      (fun query other => query.runId ≠ other.runId) where
  roundtrip query boundary valid stable := by
    obtain ⟨digest, hashed⟩ := artifactFilterFingerprint_exists lawful query.runId
    obtain ⟨cursor, encoded, read⟩ :=
      creation_roundtrip artifactCursor (artifactEndpoint query.runId) lawful rfl
      (artifactQuery_plain valid).2 (filterFingerprint_plain lawful hashed)
        (requireId_ok "artifact cursor ID" stable)
    refine ⟨cursor, ?_, ?_⟩
    · simp only [artifactCursors, encodeArtifactCursor, bind_ok]
      exact ⟨digest, hashed, encoded⟩
    · simp only [artifactCursors, decodeArtifactCursor, map_some_ok, hashed, read]
  exact query cursor boundary valid accepted := by
    obtain ⟨digest, hashed⟩ := artifactFilterFingerprint_exists lawful query.runId
    simp only [artifactCursors, decodeArtifactCursor, map_some_ok, hashed] at accepted
    simp only [artifactCursors, encodeArtifactCursor, bind_ok, hashed, Except.ok.injEq,
      exists_eq_left']
    exact creation_exact lawful rfl (artifactQuery_plain valid).2
      (filterFingerprint_plain lawful hashed) accepted
  refused query other boundary cursor valid _ different stable encoded result accepted := by
    simp only [artifactCursors, encodeArtifactCursor, bind_ok] at encoded
    obtain ⟨digest, hashed, encoded⟩ := encoded
    cases result with
    | none => exact map_some_none accepted
    | some found =>
        simp only [artifactCursors, decodeArtifactCursor, map_some_ok] at accepted
        have same := (creation_accepted lawful (artifactQuery_plain valid).2
          (filterFingerprint_plain lawful hashed) (requireId_plain stable).1 encoded accepted).1
        exact different ((String.append_right_inj _).mp same).symm

theorem timelineCursors_guarantees (lawful : support.Lawful) :
    (timelineCursors support).Guarantees (fun query => requireId query.1 "run ID" = .ok ())
      (fun _ sequence => 1 ≤ sequence ∧ ShortInteger support sequence)
      (CanonicalPayload support timelineCursor.cursorPrefix)
        (fun query other => query.1 ≠ other.1) where
  roundtrip := by
    rintro ⟨runId, query⟩ sequence stable ⟨positive, short⟩
    have writes : WritesBoundary support timelineCursor (timelineEndpoint runId)
      (timelineBoundary runId) sequence
        (timelinePayload runId sequence) :=
          timeline_writes lawful (requireId_plain stable).1 positive
    obtain ⟨cursor, encoded⟩ :=
      encodePayload_exists lawful timelineCursor.cursorPrefix writes.plain (by
      simp [timelinePayload, (writes_str _).written, written_version lawful, written_int short])
    exact ⟨cursor, encoded, map_ok.mpr ⟨sequence, writes.roundtrip lawful encoded, rfl⟩⟩
  exact := by
    rintro ⟨runId, query⟩ cursor sequence stable accepted
    obtain ⟨found, read, same⟩ := map_ok.mp accepted
    obtain rfl := Option.some.inj same
    obtain ⟨_, _, _, _, taken⟩ := readCursor_ok.mp read
    exact (timeline_writes lawful (requireId_plain stable).1
      (timelineBoundary_eq_some.mp taken).2.2).exact lawful read
  refused := by
    rintro ⟨runId, query⟩ ⟨otherId, other⟩ sequence cursor stable _ different _ encoded
      result accepted
    obtain ⟨found, read, _⟩ := map_ok.mp accepted
    change readCursor support timelineCursor (timelineEndpoint otherId)
      (timelineBoundary otherId) cursor = .ok found at read
    obtain ⟨decoded, members, _, taken⟩ := encodePayload_accepted lawful
      (timeline_plain lawful sequence (requireId_plain stable).1) encoded read
    simp only [timelinePayload, List.forall_mem_cons, List.not_mem_nil, false_implies, implies_true,
      and_true] at members
    have named := (timelineBoundary_eq_some.mp taken).1
    rw [members.2.1, Option.some.injEq, PythonValue.str.injEq] at named
    exact different named

theorem auditCursors_guarantees (lawful : support.Lawful) :
    (auditCursors support).Guarantees (fun query => query.validate = .ok ())
      (fun _ boundary => boundary.Placed ∧ ShortInteger support boundary.highWatermark ∧
        ShortInteger support boundary.beforeFeedSequence)
      (CanonicalPayload support auditCursor.cursorPrefix)
      (fun query other => support.CollisionFree ∧ query.toAuditFilters ≠ other.toAuditFilters) where
  roundtrip query boundary _ item := by
    obtain ⟨digest, hashed⟩ := auditFilterFingerprint_exists lawful query.toAuditFilters
    have writes : WritesBoundary support auditCursor AUDIT_FEED_ENDPOINT_VERSION
      (auditBoundary (.ok digest)) boundary
        (auditPayload digest boundary) :=
          audit_writes lawful (filterFingerprint_plain lawful hashed) item.1
    obtain ⟨cursor, encoded⟩ :=
      encodePayload_exists lawful auditCursor.cursorPrefix writes.plain (by
      simp [auditPayload, (writes_str _).written, written_version lawful, written_int item.2.1,
        written_int item.2.2])
    refine ⟨cursor, ?_, ?_⟩
    · simp only [auditCursors, encodeAuditCursor, bind_ok]
      exact ⟨digest, hashed, encoded⟩
    · simp only [auditCursors, decodeAuditCursor, map_some_ok, hashed,
        writes.roundtrip lawful encoded]
  exact query cursor boundary _ accepted := by
    obtain ⟨digest, hashed⟩ := auditFilterFingerprint_exists lawful query.toAuditFilters
    simp only [auditCursors, decodeAuditCursor, map_some_ok, hashed] at accepted
    simp only [auditCursors, encodeAuditCursor, bind_ok, hashed, Except.ok.injEq, exists_eq_left']
    obtain ⟨_, _, _, _, taken⟩ := readCursor_ok.mp accepted
    obtain ⟨_, _, _, _, _, placed⟩ := auditBoundary_eq_some.mp taken
    exact (audit_writes lawful (filterFingerprint_plain lawful hashed) placed).exact lawful accepted
  refused query other boundary cursor valid otherValid := by
    rintro ⟨free, different⟩ _ encoded result accepted
    simp only [auditCursors, encodeAuditCursor, bind_ok] at encoded
    obtain ⟨digest, hashed, encoded⟩ := encoded
    cases result with
    | none => exact map_some_none accepted
    | some found =>
        simp only [auditCursors, decodeAuditCursor, map_some_ok] at accepted
        obtain ⟨decoded, members, _, taken⟩ := encodePayload_accepted lawful
          (audit_plain lawful boundary (filterFingerprint_plain lawful hashed)) encoded accepted
        simp only [auditPayload, List.forall_mem_cons, List.not_mem_nil, false_implies,
          implies_true, and_true] at members
        obtain ⟨expected, expectedHash, matched, _⟩ := auditBoundary_eq_some.mp taken
        rw [members.2.2.1, Option.some.injEq, PythonValue.str.injEq] at matched
        exact different (auditFilterFingerprint_injective lawful free valid otherValid hashed
          (matched ▸ expectedHash))

theorem decodeScheduleCursor_some {query : SchedulePageQuery} (given : query.cursor = some cursor)
    (accepted : decodeScheduleCursor support query scope = .ok result) :
    ∃ key, result = some key ∧ scheduleKey support scope cursor = some key := by
  simp only [decodeScheduleCursor, bind_ok, given, pure_ok, requireSome_ok] at accepted
  obtain ⟨_, _, key, found, same⟩ := accepted
  exact ⟨key, same.symm, found⟩

theorem scheduleCursors_guarantees (lawful : support.Lawful) :
    (scheduleCursors support).Guarantees (fun query => 1 ≤ query.2.limit ∧ query.2.limit ≤ 100)
      (fun query key => ScheduleItem query.1 key) (fun _ => True)
        (fun query other => query.1 ≠ other.1) where
  roundtrip := by
    rintro ⟨scope, query⟩ key limited item
    have short := item.short
    obtain ⟨cursor, encoded, nonempty, bounded, plain⟩ := encodeScheduleCursor_exists lawful short
    have found := scheduleKey_encoded lawful short.scopeText.2.1
      (fun item member => (short.keyTexts item member).2.1) item.accepted encoded
    refine ⟨cursor, encoded, ?_⟩
    simp only [scheduleCursors, decodeScheduleCursor, SchedulePageQuery.validate, bind_ok,
      require_ok, pure_ok, requireSome_ok, List.all_eq_true, decide_eq_true_eq]
    refine ⟨(), ⟨(), limited, ?_⟩, key, found, rfl⟩
    rintro _ ⟨⟩
    exact ⟨nonempty, bounded, plain⟩
  exact := by
    rintro ⟨scope, query⟩ cursor key _ accepted
    obtain ⟨_, same, found⟩ := decodeScheduleCursor_some rfl accepted
    obtain rfl := Option.some.inj same
    exact iff_of_true (scheduleKey_eq_some found).2 trivial
  refused := by
    rintro ⟨scope, query⟩ ⟨otherScope, other⟩ key cursor _ _ different item encoded result accepted
    obtain ⟨otherKey, _, found⟩ := decodeScheduleCursor_some rfl accepted
    have short := item.short
    obtain ⟨raw, decoded, carries, _, named, _⟩ := schedule_carries lawful short.scopeText.2.1
      (fun item member => (short.keyTexts item member).2.1) encoded
    have otherNamed := carries.scheduleScope found
    rw [named, Option.some.injEq, PythonValue.str.injEq] at otherNamed
    exact different otherNamed

variable (support)

inductive PageKind where
  | runs
  | timeline
  | artifacts
  | audits
  | schedules
deriving DecidableEq

def PageKind.cursorPrefix : PageKind → String
  | .runs => runCursor.cursorPrefix
  | .timeline => timelineCursor.cursorPrefix
  | .artifacts => artifactCursor.cursorPrefix
  | .audits => auditCursor.cursorPrefix
  | .schedules => schedulePrefix

/-- A cursor that the list hands out under some query. -/
def PageKind.Issues (cursor : String) : PageKind → Prop
  | .runs => ∃ query boundary, (runCursors support).encode query boundary = .ok cursor
  | .timeline => ∃ query sequence, (timelineCursors support).encode query sequence = .ok cursor
  | .artifacts => ∃ query boundary, (artifactCursors support).encode query boundary = .ok cursor
  | .audits => ∃ query boundary, (auditCursors support).encode query boundary = .ok cursor
  | .schedules => ∃ query key, (scheduleCursors support).encode query key = .ok cursor

/-- A cursor that the list accepts under some query. -/
def PageKind.Accepts (cursor : String) : PageKind → Prop
  | .runs => ∃ query result, (runCursors support).decode query cursor = .ok result
  | .timeline => ∃ query result, (timelineCursors support).decode query cursor = .ok result
  | .artifacts => ∃ query result, (artifactCursors support).decode query cursor = .ok result
  | .audits => ∃ query result, (auditCursors support).decode query cursor = .ok result
  | .schedules => ∃ query result, (scheduleCursors support).decode query cursor = .ok result

variable {support}

theorem PageKind.Issues.started {kind : PageKind} (issues : kind.Issues support cursor) :
    kind.cursorPrefix.toList <+: cursor.toList := by
  cases kind with
  | runs | artifacts | audits =>
      obtain ⟨query, boundary, encoded⟩ := issues
      obtain ⟨_, _, encoded⟩ := bind_ok.mp encoded
      exact encodePayload_started encoded
  | timeline | schedules =>
      obtain ⟨query, boundary, encoded⟩ := issues
      exact encodePayload_started encoded

theorem PageKind.Accepts.started {kind : PageKind} (accepts : kind.Accepts support cursor) :
    kind.cursorPrefix.toList <+: cursor.toList := by
  cases kind with
  | runs | artifacts | audits =>
      obtain ⟨query, result, read⟩ := accepts
      obtain ⟨_, read, _⟩ := bind_ok.mp read
      exact readCursor_started read
  | timeline =>
      obtain ⟨query, result, read⟩ := accepts
      obtain ⟨_, read, _⟩ := map_ok.mp read
      exact readCursor_started read
  | schedules =>
      obtain ⟨query, result, read⟩ := accepts
      obtain ⟨_, _, found⟩ := decodeScheduleCursor_some rfl read
      exact (scheduleKey_eq_some found).1

theorem PageKind.issues_accepts {kind other : PageKind} (issues : kind.Issues support cursor)
    (accepts : other.Accepts support cursor) : kind = other := by
  have prefixes : ∀ kind other : PageKind, kind.cursorPrefix.toList <+: other.cursorPrefix.toList →
      kind = other := by
    intro kind other
    cases kind <;> cases other <;> decide
  rcases List.prefix_or_prefix_of_prefix issues.started accepts.started with shorter | longer
  · exact prefixes kind other shorter
  · exact (prefixes other kind longer).symm

theorem timeline_true_version (lawful : support.Lawful) {sequence : Int}
    (stable : requireId runId "run ID" = .ok ()) (positive : 1 ≤ sequence)
    (short : ShortInteger support sequence) (query : RunTimelineQuery) :
    ∃ cursor, decodeTimelineCursor support runId { query with cursor := some cursor } =
      .ok sequence ∧
      encodeTimelineCursor support runId sequence ≠ .ok cursor := by
  have plain := (requireId_plain stable).1
  have fields : PlainFields support [("endpoint", .str (timelineEndpoint runId)),
    ("run_id", .str runId),
      ("sequence", .int sequence), ("version", .bool true)] := by
    refine ⟨show PlainNames timelineCursor.names by decide, by simp [PythonValue.leaf], ?_⟩
    simp [PythonValue.nfcAll, lawful.keeps _ plain, lawful.keeps _ (timelineEndpoint_plain plain)]
  obtain ⟨cursor, encoded⟩ := encodePayload_exists lawful timelineCursor.cursorPrefix fields (by
    simp [(writes_str _).written, (writes_bool _).written, written_int short])
  obtain ⟨raw, decoded, carries, _, exactly, found⟩ := encodePayload_carries lawful fields encoded
  simp only [List.forall_mem_cons, List.not_mem_nil, false_implies, implies_true, and_true] at found
  obtain ⟨endpointed, run, counted, version⟩ := found
  refine ⟨cursor, ?_, fun written => ?_⟩
  · refine readCursor_ok.mpr ⟨raw, decoded, carries, ⟨exactly, ?_, string?_eq_some.mpr endpointed⟩,
      timelineBoundary_eq_some.mpr ⟨run, counted, positive⟩⟩
    rw [CursorSupport.versionOne, version]
    rfl
  · have members :=
      ((carries.encodePayload_iff lawful (timeline_plain lawful sequence plain) exactly).mp
        written).2
    have number := members ("version", .int 1) (by simp [timelinePayload])
    simp [version] at number

end

namespace FirstPage

/-- The digest of a message is its bytes in hexadecimal digits. -/
def support : CursorSupport Bool where
  text := acuteSupport
  numbers := halfSupport
  sha256 := AccentedConfiguration.hexText
  loads := jsonLoads halfSupport
  floatIsOne _ := false
  fromisoformat text :=
    match ZonedDatetime.fromIsoformat text with
    | some value =>
        if valid : value.datetime.Valid then
          some (⟨value.datetime, valid⟩, value.offset.map fun minutes => minutes * 60000000)
        else none
    | none => none

theorem hexText_digits (message : ByteArray) :
    (AccentedConfiguration.hexText message).toList.all hexadecimal = true := by
  have digits : ∀ digit < 16, hexadecimal (Nat.digitChar digit) = true := by decide
  rw [AccentedConfiguration.hexText, String.toList_ofList, List.all_eq_true]
  intro character member
  obtain ⟨byte, _, digit⟩ := List.mem_flatMap.mp member
  have bound := byte.toNat_lt
  simp only [AccentedConfiguration.hexByte, List.mem_cons, List.not_mem_nil, or_false] at digit
  rcases digit with rfl | rfl
  · exact digits _ (by omega)
  · exact digits _ (by omega)

theorem lawful : support.Lawful where
  keeps := acuteSupport_keepsAscii
  digits := show 1 ≤ 4300 by decide
  hexadecimal := hexText_digits
  loads _ _ _ := rfl
  fromisoformat time := by
    have valid : (⟨time.val, some 0⟩ : ZonedDatetime).datetime.Valid := time.property
    have read := ZonedDatetime.fromIsoformat_isoformat valid (by rintro _ ⟨⟩; decide)
    simp only [support, UtcTime.isoformatMicroseconds, read, dif_pos time.property]
    rfl

def query : RunTimelineQuery := ⟨⟨none, 50⟩⟩

theorem stable : requireId "run-1" "run ID" = .ok () := by decide +kernel

theorem short : ShortInteger support 1 := show (Nat.toDigits 10 1).length ≤ 4300 by decide

end FirstPage

/-- Page cursors are read back, are refused under other filters, runs and lists, and are accepted
in another spelling exactly when their payload is not canonical; schedule cursors never are. -/
theorem page_cursors_canonical {φ : Type} (support : CursorSupport φ) (lawful : support.Lawful) :
    (runCursors support).Guarantees (fun query => query.validate = .ok ())
        (fun _ boundary => requireId boundary.id "run ID" = .ok ())
          (CanonicalPayload support runCursor.cursorPrefix)
        (fun query other => support.CollisionFree ∧ query.toRunFilters ≠ other.toRunFilters) ∧
      (timelineCursors support).Guarantees (fun query => requireId query.1 "run ID" = .ok ())
        (fun _ sequence => 1 ≤ sequence ∧ ShortInteger support sequence)
        (CanonicalPayload support timelineCursor.cursorPrefix)
          (fun query other => query.1 ≠ other.1) ∧
      (artifactCursors support).Guarantees (fun query => query.validate = .ok ())
        (fun _ boundary => requireId boundary.id "artifact ID" = .ok ())
        (CanonicalPayload support artifactCursor.cursorPrefix)
          (fun query other => query.runId ≠ other.runId) ∧
      (auditCursors support).Guarantees (fun query => query.validate = .ok ())
        (fun _ boundary => boundary.Placed ∧ ShortInteger support boundary.highWatermark ∧
          ShortInteger support boundary.beforeFeedSequence)
        (CanonicalPayload support auditCursor.cursorPrefix)
        (fun query other => support.CollisionFree ∧ query.toAuditFilters ≠ other.toAuditFilters) ∧
      (scheduleCursors support).Guarantees (fun query => 1 ≤ query.2.limit ∧ query.2.limit ≤ 100)
        (fun query key => ScheduleItem query.1 key) (fun _ => True)
          (fun query other => query.1 ≠ other.1) ∧
      ∀ (kind other : PageKind) (cursor : String), kind ≠ other → kind.Issues support cursor →
        ¬other.Accepts support cursor := by
  refine ⟨runCursors_guarantees lawful, timelineCursors_guarantees lawful,
    artifactCursors_guarantees lawful,
    auditCursors_guarantees lawful, scheduleCursors_guarantees lawful, ?_⟩
  intro kind other cursor different issues accepts
  exact different (PageKind.issues_accepts issues accepts)


namespace FirstPage

theorem page_cursors_canonical_first : ∃ cursor,
    encodeTimelineCursor support "run-1" 1 = .ok cursor ∧
    ∃ result, (timelineCursors support).decode ("run-1", query) cursor = .ok result ∧
      result = some 1 := by
  obtain ⟨_, timeline, _⟩ := page_cursors_canonical support lawful
  obtain ⟨cursor, encoded, read⟩ := timeline.roundtrip ("run-1", query) 1 stable ⟨by decide, short⟩
  exact ⟨cursor, encoded, some 1, read, rfl⟩

theorem true_version_accepted :
    ∃ cursor, decodeTimelineCursor support "run-1" { query with cursor := some cursor } = .ok 1 ∧
    encodeTimelineCursor support "run-1" 1 ≠ .ok cursor :=
  timeline_true_version lawful stable (by decide) short query

end FirstPage

end MarketingAgents
