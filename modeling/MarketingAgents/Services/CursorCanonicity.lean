import MarketingAgents.Services.PageCursors

namespace MarketingAgents

open Library
open Library.JsonText

/-! # Canonical page cursors

What the reader of a cursor accepts, and when that is what the writer produces:
the bytes have to be the canonical JSON of their value, with the version as an
integer and the time as it is written.
-/

section

variable {φ β : Type} {support : CursorSupport φ} {cursorPrefix cursor endpoint : String}
  {raw : ByteArray}
  {decoded : PythonValue φ} {kind : CursorKind} {read : PythonValue φ → Option β} {boundary : β}
  {fields : List (String × PythonValue φ)}

/-- A cursor is the token of bytes that are read as a value. -/
structure Carries (support : CursorSupport φ) (cursorPrefix cursor : String) (raw : ByteArray)
    (decoded : PythonValue φ) : Prop where
  token : cursorToken cursorPrefix raw = cursor
  loads : support.loads raw = some decoded

/-- The version is the integer, and the time is spelled as it is written. -/
structure Spelled (support : CursorSupport φ) (decoded : PythonValue φ) : Prop where
  version : decoded.item? "version" = some (.int 1)
  time : ∀ text, decoded.string? "created_at" = some text →
    ∃ time, decodeTime support text = some time ∧ time.isoformatMicroseconds = text

/-- The bytes under a cursor are the canonical JSON of what they are read as, in the usual
spelling. -/
def CanonicalPayload (support : CursorSupport φ) (cursorPrefix cursor : String) : Prop :=
  ∃ raw decoded, Carries support cursorPrefix cursor raw decoded ∧
    canonicalJsonBytes support.text support.numbers decoded = .ok raw ∧ Spelled support decoded

theorem cursorToken_injective
    (same : cursorToken cursorPrefix raw = cursorToken cursorPrefix other) :
    raw = other := by
  have texts := congrArg String.toList same
  simp only [cursorToken, String.toList_append, String.toList_ofList] at texts
  exact ByteArray.ext (Array.toList_inj.mp
    (Base64Url.token_injective (List.append_cancel_left texts)))

theorem Carries.decodePayload (carries : Carries support kind.cursorPrefix cursor raw decoded)
    (mapping : decoded.isMapping = true) :
      decodePayload support kind cursor = .ok (decoded, raw) := by
  have started : cursor.toList = kind.cursorPrefix.toList ++ Base64Url.token raw.data.toList := by
    rw [← carries.token, cursorToken, String.toList_append, String.toList_ofList]
  simp only [MarketingAgents.decodePayload, bind_ok, pure_ok, require_ok, requireSome_ok, started,
    List.drop_left]
  exact ⟨(), List.prefix_append _ _, _, Base64Url.decode_pad_token _, decoded, carries.loads,
    (), mapping, rfl⟩

theorem hasExactly_isMapping (exactly : decoded.hasExactly names = true) :
    decoded.isMapping = true := by
  cases decoded with
  | mapping => rfl
  | null | bool | int | float | str | sequence | other => cases exactly

theorem readCursor_ok : readCursor support kind endpoint read cursor = .ok boundary ↔
    ∃ raw decoded, Carries support kind.cursorPrefix cursor raw decoded ∧
      (decoded.hasExactly kind.names = true ∧ support.versionOne decoded = true ∧
        decoded.string? "endpoint" = some endpoint) ∧ read decoded = some boundary := by
  simp only [readCursor, bind_ok, pure_ok, require_ok, requireSome_ok, Prod.exists]
  constructor
  · rintro ⟨decoded, raw, opened, _, checked, _, found, _, token, rfl⟩
    refine ⟨raw, decoded, ⟨token, ?_⟩, checked, found⟩
    simp only [decodePayload, bind_ok, pure_ok, require_ok, requireSome_ok, Prod.mk.injEq] at opened
    obtain ⟨_, _, bytes, _, value, loaded, _, _, rfl, rfl⟩ := opened
    exact loaded
  · rintro ⟨raw, decoded, carries, checked, found⟩
    exact ⟨decoded, raw, carries.decodePayload (hasExactly_isMapping checked.1), (), checked,
      boundary, found, (), carries.token, rfl⟩

theorem encodePayload_ok : encodePayload support cursorPrefix payload = .ok cursor ↔
    ∃ raw, canonicalJsonBytes support.text support.numbers payload = .ok raw ∧
      cursorToken cursorPrefix raw = cursor := by
  simp only [encodePayload, bind_ok, pure_ok]

theorem CursorSupport.Lawful.loaded (lawful : support.Lawful)
    (written : canonicalJsonBytes support.text support.numbers value = .ok raw) :
    ∃ decoded, support.loads raw = some decoded ∧ decoded.Settled support.text support.numbers ∧
      canonicalJsonBytes support.text support.numbers decoded = .ok raw := by
  obtain ⟨decoded, loaded, settled, rewritten⟩ := canonicalJsonBytes_loaded written
  exact ⟨decoded, (lawful.loads value raw written).trans loaded, settled, rewritten⟩

theorem Carries.settled (lawful : support.Lawful)
    (carries : Carries support cursorPrefix cursor raw decoded)
    (written : canonicalJsonBytes support.text support.numbers decoded = .ok raw) :
    decoded.Settled support.text support.numbers := by
  obtain ⟨other, loaded, settled, _⟩ := lawful.loaded written
  rw [carries.loads, Option.some.injEq] at loaded
  rwa [loaded]

/-- The fields of a payload: plain names, simple values and composed texts. -/
structure PlainFields (support : CursorSupport φ)
    (fields : List (String × PythonValue φ)) : Prop where
  names : PlainNames (fields.map Prod.fst)
  flat : ∀ field ∈ fields, field.2.leaf = true
  composed : ∀ field ∈ fields, field.2.nfcAll support.text = field.2

theorem encodePayload_carries (lawful : support.Lawful) (plain : PlainFields support fields)
    (encoded : encodePayload support cursorPrefix (.record fields) = .ok cursor) :
    ∃ raw decoded, Carries support cursorPrefix cursor raw decoded ∧
      canonicalJsonBytes support.text support.numbers decoded = .ok raw ∧
      decoded.hasExactly (fields.map Prod.fst) = true ∧
      ∀ field ∈ fields, decoded.item? field.1 = some field.2 := by
  obtain ⟨raw, written, token⟩ := encodePayload_ok.mp encoded
  obtain ⟨decoded, loaded, settled, rewritten⟩ := lawful.loaded written
  have agrees := (canonicalJsonBytes_eq_iff written rewritten).mp rfl
  obtain ⟨exactly, found⟩ := (flat_found_iff lawful.keeps plain.names rfl plain.flat settled).mpr
    ⟨agrees, plain.composed⟩
  exact ⟨raw, decoded, ⟨token, loaded⟩, rewritten, exactly, found⟩

theorem Carries.encodePayload_iff (lawful : support.Lawful) (plain : PlainFields support fields)
    (carries : Carries support cursorPrefix cursor raw decoded)
    (exactly : decoded.hasExactly (fields.map Prod.fst) = true) :
    encodePayload support cursorPrefix (.record fields) = .ok cursor ↔
      canonicalJsonBytes support.text support.numbers decoded = .ok raw ∧
        ∀ field ∈ fields, decoded.item? field.1 = some field.2 := by
  constructor
  · intro encoded
    obtain ⟨bytes, value, others, written, _, found⟩ := encodePayload_carries lawful plain encoded
    obtain rfl := cursorToken_injective (others.token.trans carries.token.symm)
    obtain rfl := Option.mem_unique others.loads carries.loads
    exact ⟨written, found⟩
  · rintro ⟨written, found⟩
    have settled := carries.settled lawful written
    obtain ⟨agrees, _⟩ := (flat_found_iff lawful.keeps plain.names rfl plain.flat settled).mp
      ⟨exactly, found⟩
    obtain ⟨normal, document, normalized, documented⟩ := written_iff.mp ⟨raw, written⟩
    obtain rfl : normal = decoded := by
      have same := settled_normalize settled
      rw [same, Except.ok.injEq] at normalized
      exact normalized.symm
    have each : ∀ field ∈ fields, field.2.Written support.text support.numbers := by
      intro field member
      obtain ⟨inner, one⟩ := written_item? settled (document_written.mp documented)
        (found field member)
      exact written_iff.mpr ⟨_, inner,
        settled_normalize (item?_settled settled (found field member)), document_written.mpr one⟩
    obtain ⟨bytes, encoded⟩ := written_record lawful.keeps plain.names each
    obtain rfl := (canonicalJsonBytes_eq_iff encoded written).mpr agrees
    exact encodePayload_ok.mpr ⟨_, encoded, carries.token⟩

/-- How a kind of cursor writes a boundary of one query: the reader finds a boundary in the
fields that are written of it, and finds no other fields but in another spelling. -/
structure WritesBoundary (support : CursorSupport φ) (kind : CursorKind) (endpoint : String)
    (read : PythonValue φ → Option β) (boundary : β)
    (fields : List (String × PythonValue φ)) : Prop where
  plain : PlainFields support fields
  names : fields.map Prod.fst = kind.names
  reads : ∀ decoded, decoded.hasExactly kind.names = true →
    (∀ field ∈ fields, decoded.item? field.1 = some field.2) →
    support.versionOne decoded = true ∧ decoded.string? "endpoint" = some endpoint ∧
      read decoded = some boundary ∧
      Spelled support decoded
  found : ∀ decoded, decoded.string? "endpoint" = some endpoint → read decoded = some boundary →
    Spelled support decoded → ∀ field ∈ fields, decoded.item? field.1 = some field.2

theorem WritesBoundary.roundtrip (lawful : support.Lawful)
    (writes : WritesBoundary support kind endpoint read boundary fields)
    (encoded : encodePayload support kind.cursorPrefix (.record fields) = .ok cursor) :
    readCursor support kind endpoint read cursor = .ok boundary := by
  obtain ⟨raw, decoded, carries, _, exactly, found⟩ :=
    encodePayload_carries lawful writes.plain encoded
  rw [writes.names] at exactly
  obtain ⟨version, named, taken, _⟩ := writes.reads decoded exactly found
  exact readCursor_ok.mpr ⟨raw, decoded, carries, ⟨exactly, version, named⟩, taken⟩

theorem WritesBoundary.exact (lawful : support.Lawful)
    (writes : WritesBoundary support kind endpoint read boundary fields)
    (accepted : readCursor support kind endpoint read cursor = .ok boundary) :
    encodePayload support kind.cursorPrefix (.record fields) = .ok cursor ↔
      CanonicalPayload support kind.cursorPrefix cursor := by
  obtain ⟨raw, decoded, carries, ⟨exactly, version, named⟩, taken⟩ := readCursor_ok.mp accepted
  rw [carries.encodePayload_iff lawful writes.plain (writes.names.symm ▸ exactly)]
  constructor
  · rintro ⟨written, found⟩
    exact ⟨raw, decoded, carries, written, (writes.reads decoded exactly found).2.2.2⟩
  · rintro ⟨bytes, value, others, written, spelled⟩
    obtain rfl := cursorToken_injective (others.token.trans carries.token.symm)
    obtain rfl := Option.mem_unique others.loads carries.loads
    exact ⟨written, writes.found value named taken spelled⟩

theorem encodePayload_accepted (lawful : support.Lawful) (plain : PlainFields support fields)
    (encoded : encodePayload support kind.cursorPrefix (.record fields) = .ok cursor)
    (accepted : readCursor support kind endpoint read cursor = .ok boundary) :
    ∃ decoded, (∀ field ∈ fields, decoded.item? field.1 = some field.2) ∧
      decoded.string? "endpoint" = some endpoint ∧ read decoded = some boundary := by
  obtain ⟨raw, decoded, carries, _, _, found⟩ := encodePayload_carries lawful plain encoded
  obtain ⟨bytes, value, others, ⟨_, _, named⟩, taken⟩ := readCursor_ok.mp accepted
  obtain rfl := cursorToken_injective (others.token.trans carries.token.symm)
  obtain rfl := Option.mem_unique others.loads carries.loads
  exact ⟨value, found, named, taken⟩

theorem Carries.started (carries : Carries support cursorPrefix cursor raw decoded) :
    cursorPrefix.toList <+: cursor.toList := by
  rw [← carries.token, cursorToken, String.toList_append]
  exact List.prefix_append _ _

theorem encodePayload_started (encoded : encodePayload support cursorPrefix payload = .ok cursor) :
    cursorPrefix.toList <+: cursor.toList := by
  obtain ⟨raw, _, rfl⟩ := encodePayload_ok.mp encoded
  rw [cursorToken, String.toList_append]
  exact List.prefix_append _ _

theorem readCursor_started
    (accepted : readCursor support kind endpoint read cursor = .ok boundary) :
    kind.cursorPrefix.toList <+: cursor.toList := by
  obtain ⟨_, _, carries, _⟩ := readCursor_ok.mp accepted
  exact carries.started

end

section

theorem writeDigits_plain (width value : Nat) :
    ∀ character ∈ writeDigits width value, character.toNat < 128 := by
  induction width generalizing value with
  | zero => simp [writeDigits]
  | succ width ih =>
      rw [writeDigits, List.forall_mem_append]
      refine ⟨ih _, ?_⟩
      rw [List.forall_mem_singleton]
      exact digitChar_plain (lt_trans (Nat.mod_lt value (by decide)) (by decide))

theorem isoformatMicroseconds_plain (time : UtcTime) : PlainText time.isoformatMicroseconds := by
  simp only [PlainText, UtcTime.isoformatMicroseconds, ZonedDatetime.isoformat,
    String.toList_ofList,
    ZonedDatetime.writeOffset, List.forall_mem_append, List.forall_mem_cons, List.cons_append]
  repeat' apply And.intro
  all_goals first | exact writeDigits_plain _ _ | decide

theorem isoformatMicroseconds_injective {φ : Type} {support : CursorSupport φ}
    (lawful : support.Lawful) {left right : UtcTime}
    (same : left.isoformatMicroseconds = right.isoformatMicroseconds) : left = right := by
  have read := lawful.fromisoformat left
  rw [same, lawful.fromisoformat right] at read
  exact (Prod.mk.inj (Option.some.inj read)).1.symm

theorem plainText_append (leftPlain : PlainText left) (rightPlain : PlainText right) :
    PlainText (left ++ right) := by
  rw [PlainText, String.toList_append, List.forall_mem_append]
  exact ⟨leftPlain, rightPlain⟩

end

section

variable {φ : Type} {support : CursorSupport φ}

theorem CursorSupport.Lawful.digest_plain (lawful : support.Lawful) (message : ByteArray) :
    PlainText (support.sha256 message) :=
  fun character member => hexadecimal_plain
    (List.all_eq_true.mp (lawful.hexadecimal message) character member)

theorem filterFingerprint_plain (lawful : support.Lawful)
    (hashed : filterFingerprint support domain filters = .ok fingerprint) :
      PlainText fingerprint := by
  simp only [filterFingerprint, bind_ok, pure_ok] at hashed
  obtain ⟨_, _, rfl⟩ := hashed
  exact lawful.digest_plain _

theorem string?_eq_some {decoded : PythonValue φ} :
    decoded.string? name = some text ↔ decoded.item? name = some (.str text) := by
  unfold PythonValue.string?
  split <;> simp_all

theorem integer?_eq_some {number : Int} {decoded : PythonValue φ} :
    decoded.integer? name = some number ↔ decoded.item? name = some (.int number) := by
  unfold PythonValue.integer?
  split <;> simp_all

theorem decodeTime_isoformat (lawful : support.Lawful) (time : UtcTime) :
    decodeTime support time.isoformatMicroseconds = some time := by
  rw [decodeTime, lawful.fromisoformat]
  rfl

theorem versionOne_integer {decoded : PythonValue φ}
    (version : decoded.item? "version" = some (.int 1)) :
    support.versionOne decoded = true := by
  rw [CursorSupport.versionOne, version]
  rfl

theorem toOption_eq_some {α : Type} {result : Except Rejection α} {value : α} :
    result.toOption = some value ↔ result = .ok value := by
  cases result <;> simp [Except.toOption]

variable {kind : CursorKind} {endpoint fingerprint fieldName : String} {boundary : CreationBoundary}

theorem creationPayload_plain (lawful : support.Lawful) (endpointPlain : PlainText endpoint)
    (fingerprintPlain : PlainText fingerprint) (idPlain : PlainText boundary.id) :
    PlainFields support (creationPayload endpoint fingerprint boundary) where
  names := show PlainNames creationNames by decide
  flat := by simp [creationPayload, PythonValue.leaf]
  composed := by
    simp [creationPayload, PythonValue.nfcAll, lawful.keeps _ endpointPlain,
      lawful.keeps _ fingerprintPlain,
      lawful.keeps _ idPlain, lawful.keeps _ (isoformatMicroseconds_plain boundary.createdAt)]

theorem creationBoundary_eq_some :
    creationBoundary support hashed fieldName decoded = some boundary ↔
      ∃ fingerprint text, hashed = .ok fingerprint ∧
      decoded.item? "filter" = some (.str fingerprint) ∧
        decoded.item? "id" = some (.str boundary.id) ∧
        decoded.item? "created_at" = some (.str text) ∧
        decodeTime support text = some boundary.createdAt ∧
          requireId boundary.id fieldName = .ok () := by
  simp only [creationBoundary, Option.bind_eq_bind, Option.bind_eq_some_iff, string?_eq_some,
    toOption_eq_some, Option.guard_eq_some', Option.pure_def, Option.some.injEq]
  constructor
  · rintro ⟨filter, filtered, id, identified, text, written, expected, hashed, _, rfl, time, read,
      _, stable, rfl⟩
    exact ⟨filter, text, hashed, filtered, identified, written, read, stable⟩
  · rintro ⟨fingerprint, text, hashed, filtered, identified, written, read, stable⟩
    exact ⟨fingerprint, filtered, boundary.id, identified, text, written, fingerprint, hashed, (),
      rfl, boundary.createdAt, read, (), stable, rfl⟩

theorem creation_writes (lawful : support.Lawful) (names : kind.names = creationNames)
    (endpointPlain : PlainText endpoint)
    (fingerprintPlain : PlainText fingerprint) (stable : requireId boundary.id fieldName = .ok ()) :
    WritesBoundary support kind endpoint
      (creationBoundary support (.ok fingerprint) fieldName) boundary
      (creationPayload endpoint fingerprint boundary) where
  plain := creationPayload_plain lawful endpointPlain fingerprintPlain (requireId_plain stable).1
  names := names.symm
  reads decoded _ found := by
    simp only [creationPayload, List.forall_mem_cons, List.not_mem_nil, false_implies, implies_true,
      and_true] at found
    obtain ⟨created, endpointed, filtered, identified, version⟩ := found
    refine ⟨versionOne_integer version, string?_eq_some.mpr endpointed,
      creationBoundary_eq_some.mpr ?_, version, ?_⟩
    · exact ⟨fingerprint, _, rfl, filtered, identified, created,
        decodeTime_isoformat lawful _, stable⟩
    · intro text written
      rw [string?_eq_some, created, Option.some.injEq, PythonValue.str.injEq] at written
      subst written
      exact ⟨boundary.createdAt, decodeTime_isoformat lawful boundary.createdAt, rfl⟩
  found decoded endpointed taken spelled := by
    obtain ⟨_, text, hashed, filtered, identified, written, read, _⟩ :=
      creationBoundary_eq_some.mp taken
    obtain rfl := Except.ok.inj hashed
    obtain ⟨time, sameRead, rfl⟩ := spelled.time text (string?_eq_some.mpr written)
    rw [read, Option.some.injEq] at sameRead
    subst sameRead
    simp only [creationPayload, List.forall_mem_cons, List.not_mem_nil, false_implies,
      implies_true, and_true]
    exact ⟨written, string?_eq_some.mp endpointed, filtered, identified, spelled.version⟩

theorem timelineBoundary_eq_some {sequence : Int} :
    timelineBoundary runId decoded = some sequence ↔ decoded.item? "run_id" = some (.str runId) ∧
      decoded.item? "sequence" = some (.int sequence) ∧ 1 ≤ sequence := by
  simp only [timelineBoundary, Option.bind_eq_bind, Option.bind_eq_some_iff, string?_eq_some,
    integer?_eq_some, Option.guard_eq_some', Option.pure_def, Option.some.injEq]
  constructor
  · rintro ⟨_, run, number, counted, _, positive, rfl⟩
    exact ⟨run, counted, positive⟩
  · rintro ⟨run, counted, positive⟩
    exact ⟨(), run, sequence, counted, (), positive, rfl⟩

theorem spelled_untimed {decoded : PythonValue φ} (exactly : decoded.hasExactly names = true)
    (untimed : "created_at" ∉ names) : Spelled support decoded ↔
      decoded.item? "version" = some (.int 1) := by
  refine ⟨Spelled.version, fun version => ⟨version, fun text written => ?_⟩⟩
  rw [string?_eq_some] at written
  cases decoded with
  | null | bool | int | float | str | sequence | other => cases exactly
  | mapping members =>
      simp only [PythonValue.item?, Option.map_eq_some_iff] at written
      obtain ⟨member, found, _⟩ := written
      have named : member.1 = some "created_at" := by simpa using List.find?_some found
      have known := (hasExactly_mapping.mp exactly).2
        (List.mem_map_of_mem (List.mem_of_find?_eq_some found))
      rw [named] at known
      exact absurd (by simpa using known) untimed

theorem timelineEndpoint_plain (plain : PlainText runId) : PlainText (timelineEndpoint runId) :=
  plainText_append (plain_of_all (by decide)) plain

theorem timeline_plain (lawful : support.Lawful) (sequence : Int) (plain : PlainText runId) :
    PlainFields support (timelinePayload runId sequence) where
  names := show PlainNames timelineCursor.names by decide
  flat := by simp [timelinePayload, PythonValue.leaf]
  composed := by
    simp [timelinePayload, PythonValue.nfcAll, lawful.keeps _ plain,
      lawful.keeps _ (timelineEndpoint_plain plain)]

theorem timeline_writes (lawful : support.Lawful) {sequence : Int} (plain : PlainText runId)
    (positive : 1 ≤ sequence) :
    WritesBoundary support timelineCursor (timelineEndpoint runId) (timelineBoundary runId) sequence
      (timelinePayload runId sequence) where
  plain := timeline_plain lawful sequence plain
  names := rfl
  reads decoded exactly found := by
    simp only [timelinePayload, List.forall_mem_cons, List.not_mem_nil, false_implies, implies_true,
      and_true] at found
    obtain ⟨endpointed, run, counted, version⟩ := found
    exact ⟨versionOne_integer version, string?_eq_some.mpr endpointed,
      timelineBoundary_eq_some.mpr ⟨run, counted, positive⟩,
        (spelled_untimed exactly (by decide)).mpr version⟩
  found decoded endpointed taken spelled := by
    obtain ⟨run, counted, _⟩ := timelineBoundary_eq_some.mp taken
    simp only [timelinePayload, List.forall_mem_cons, List.not_mem_nil, false_implies,
      implies_true, and_true]
    exact ⟨string?_eq_some.mp endpointed, run, counted, spelled.version⟩

/-- A place in the feed is not behind its high watermark. -/
def AuditBoundary.Placed (boundary : AuditBoundary) : Prop :=
  1 ≤ boundary.highWatermark ∧ 1 ≤ boundary.beforeFeedSequence ∧
    boundary.beforeFeedSequence ≤ boundary.highWatermark

theorem auditBoundary_eq_some {boundary : AuditBoundary} {hashed : Except Rejection String}
    {decoded : PythonValue φ} :
    auditBoundary hashed decoded = some boundary ↔ ∃ fingerprint, hashed = .ok fingerprint ∧
      decoded.item? "filter" = some (.str fingerprint) ∧
      decoded.item? "high_watermark" = some (.int boundary.highWatermark) ∧
      decoded.item? "before_feed_sequence" = some (.int boundary.beforeFeedSequence) ∧
        boundary.Placed := by
  simp only [auditBoundary, Option.bind_eq_bind, Option.bind_eq_some_iff, string?_eq_some,
    integer?_eq_some, Option.guard_eq_some', Option.pure_def, Option.some.injEq, toOption_eq_some]
  constructor
  · rintro ⟨filter, filtered, high, marked, before, counted, _, placed, expected,
      hashed, _, rfl, rfl⟩
    exact ⟨filter, hashed, filtered, marked, counted, placed⟩
  · rintro ⟨fingerprint, hashed, filtered, marked, counted, placed⟩
    exact ⟨fingerprint, filtered, boundary.highWatermark, marked, boundary.beforeFeedSequence,
      counted, (), placed, fingerprint, hashed, (), rfl, rfl⟩

theorem audit_plain (lawful : support.Lawful) (boundary : AuditBoundary)
    (plain : PlainText fingerprint) :
    PlainFields support (auditPayload fingerprint boundary) where
  names := show PlainNames auditCursor.names by decide
  flat := by simp [auditPayload, PythonValue.leaf]
  composed := by
    have endpoint : PlainText AUDIT_FEED_ENDPOINT_VERSION := plain_of_all (by decide)
    simp [auditPayload, PythonValue.nfcAll, lawful.keeps _ plain, lawful.keeps _ endpoint]

theorem audit_writes (lawful : support.Lawful) {boundary : AuditBoundary}
    (plain : PlainText fingerprint) (placed : boundary.Placed) :
    WritesBoundary support auditCursor AUDIT_FEED_ENDPOINT_VERSION
      (auditBoundary (.ok fingerprint)) boundary (auditPayload fingerprint boundary) where
  plain := audit_plain lawful boundary plain
  names := rfl
  reads decoded exactly found := by
    simp only [auditPayload, List.forall_mem_cons, List.not_mem_nil, false_implies, implies_true,
      and_true] at found
    obtain ⟨before, endpointed, filtered, high, version⟩ := found
    exact ⟨versionOne_integer version, string?_eq_some.mpr endpointed,
      auditBoundary_eq_some.mpr ⟨fingerprint, rfl, filtered, high, before, placed⟩,
      (spelled_untimed exactly (by decide)).mpr version⟩
  found decoded endpointed taken spelled := by
    obtain ⟨_, hashed, filtered, high, before, _⟩ := auditBoundary_eq_some.mp taken
    obtain rfl := Except.ok.inj hashed
    simp only [auditPayload, List.forall_mem_cons, List.not_mem_nil, false_implies,
      implies_true, and_true]
    exact ⟨before, string?_eq_some.mp endpointed, filtered, high, spelled.version⟩

theorem written_optional {α : Type} {write : α → PythonValue φ} {value : Option α}
    (each : ∀ present, (write present).Written support.text support.numbers) :
    (PythonValue.optional write value).Written support.text support.numbers := by
  cases value with
  | none => exact writes_null.written
  | some present => exact each present

theorem written_optionalText (value : Option String) :
    (optionalText value : PythonValue φ).Written support.text support.numbers :=
  written_optional fun present => (writes_str present).written

theorem written_optionalTime (value : Option UtcTime) :
    (optionalTime value : PythonValue φ).Written support.text support.numbers :=
  written_optional fun present => (writes_str present.isoformatMicroseconds).written

theorem filterFingerprint_exists (lawful : support.Lawful) (domain : ByteArray)
    {filters : List (String × PythonValue φ)} (names : PlainNames (filters.map Prod.fst))
    (each : ∀ field ∈ filters, field.2.Written support.text support.numbers) :
    ∃ fingerprint, filterFingerprint support domain filters = .ok fingerprint := by
  obtain ⟨bytes, written⟩ := written_record lawful.keeps names each
  exact ⟨support.sha256 (domain ++ bytes),
    by simp only [filterFingerprint, bind_ok, pure_ok]; exact ⟨bytes, written, rfl⟩⟩

theorem filterFingerprint_agrees (lawful : support.Lawful) (free : support.CollisionFree)
    {lefts rights : List (String × PythonValue φ)} (names : PlainNames (lefts.map Prod.fst))
    (left : filterFingerprint support domain lefts = .ok fingerprint)
    (right : filterFingerprint support domain rights = .ok fingerprint)
    (same : lefts.map Prod.fst = rights.map Prod.fst) :
    List.Forall₂ (fun left right => left.2.Agrees support.text right.2) lefts rights := by
  simp only [filterFingerprint, bind_ok, pure_ok] at left right
  obtain ⟨leftBytes, leftWritten, leftHashed⟩ := left
  obtain ⟨rightBytes, rightWritten, rightHashed⟩ := right
  have bytes := (ByteArray.append_right_inj domain).mp
    (free _ _ (leftHashed.trans rightHashed.symm))
  exact (record_agrees lawful.keeps names rfl same.symm).mp
    ((canonicalJsonBytes_eq_iff leftWritten rightWritten).mp bytes)

theorem optionalText_agrees {left right : Option String}
    (leftComposed : ∀ value ∈ left, support.text.nfc value = value)
    (rightComposed : ∀ value ∈ right, support.text.nfc value = value) :
    (optionalText left : PythonValue φ).Agrees support.text (optionalText right) ↔
      left = right := by
  cases left with
  | none =>
      cases right <;> simp [optionalText, PythonValue.optional, PythonValue.Agrees,
        PythonValue.nfcAll, PythonValue.Same]
  | some left =>
      cases right with
      | none =>
          simp [optionalText, PythonValue.optional, PythonValue.Agrees, PythonValue.nfcAll,
            PythonValue.Same]
      | some right =>
          simp only [optionalText, PythonValue.optional, str_agrees, Option.some.injEq,
            leftComposed left rfl, rightComposed right rfl]

theorem optionalTime_agrees (lawful : support.Lawful) :
    (optionalTime left : PythonValue φ).Agrees support.text (optionalTime right) ↔
      left = right := by
  have texts (times : Option UtcTime) :
      (optionalTime times : PythonValue φ) = optionalText
          (times.map UtcTime.isoformatMicroseconds) := by
    cases times <;> rfl
  have all (times : Option UtcTime) : ∀ value ∈ times.map UtcTime.isoformatMicroseconds,
      support.text.nfc value = value := by
    intro value member
    obtain ⟨time, _, rfl⟩ := Option.mem_map.mp member
    exact lawful.keeps _ (isoformatMicroseconds_plain time)
  rw [texts, texts, optionalText_agrees (all left) (all right)]
  exact (Option.map_injective fun left right => isoformatMicroseconds_injective lawful).eq_iff

theorem requireOptional_composed (lawful : support.Lawful)
    (stable : requireOptional (requireId · fieldName) value = .ok done) :
    ∀ present ∈ value, support.text.nfc present = present :=
  fun present member => lawful.keeps _
    (requireId_plain (requireOptional_ok.mp stable present member)).1

theorem RunState.value_injective : Function.Injective RunState.value := by
  intro left right same
  cases left <;> cases right <;> first | rfl | exact absurd same (by decide)

theorem runState_composed (lawful : support.Lawful) (state : Option RunState) :
    ∀ value ∈ state.map RunState.value, support.text.nfc value = value := by
  intro value member
  obtain ⟨state, _, rfl⟩ := Option.mem_map.mp member
  refine lawful.keeps _ (plain_of_all ?_)
  cases state <;> decide

theorem runFilterMembers_plain (query : RunFilters) :
    PlainNames ((runFilterMembers query : List (String × PythonValue φ)).map Prod.fst) :=
  show PlainNames ["created_at_from", "created_at_to", "instance_id", "state", "workflow_id"] by
    decide

theorem runFilterFingerprint_exists (lawful : support.Lawful) (query : RunFilters) :
    ∃ fingerprint, runFilterFingerprint support query = .ok fingerprint := by
  refine filterFingerprint_exists lawful RUN_FILTER_DOMAIN (runFilterMembers_plain query) ?_
  simp [runFilterMembers, written_optionalText, written_optionalTime]

theorem runFilterFingerprint_injective (lawful : support.Lawful) (free : support.CollisionFree)
    {query other : RunListQuery}
    (valid : query.validate = .ok ()) (otherValid : other.validate = .ok ())
    (left : runFilterFingerprint support query.toRunFilters = .ok fingerprint)
    (right : runFilterFingerprint support other.toRunFilters = .ok fingerprint) :
    query.toRunFilters = other.toRunFilters := by
  simp only [RunListQuery.validate, bind_ok] at valid otherValid
  obtain ⟨_, instances, _, workflows, _⟩ := valid
  obtain ⟨_, otherInstances, _, otherWorkflows, _⟩ := otherValid
  have agree := filterFingerprint_agrees lawful free (runFilterMembers_plain _) left right rfl
  simp only [runFilterMembers, List.forall₂_cons, List.Forall₂.nil, and_true,
    optionalTime_agrees lawful, optionalText_agrees (requireOptional_composed lawful instances)
      (requireOptional_composed lawful otherInstances),
    optionalText_agrees (requireOptional_composed lawful workflows)
      (requireOptional_composed lawful otherWorkflows),
    optionalText_agrees (runState_composed lawful _) (runState_composed lawful _)] at agree
  obtain ⟨begins, ends, instances, states, workflows⟩ := agree
  have state := Option.map_injective RunState.value_injective states
  generalize query.toRunFilters = filters at *
  generalize other.toRunFilters = others at *
  cases filters
  cases others
  simp only at begins ends instances state workflows
  rw [begins, ends, instances, state, workflows]

theorem auditFilterMembers_plain (query : AuditFilters) :
    PlainNames ((auditFilterMembers query : List (String × PythonValue φ)).map Prod.fst) :=
  show PlainNames ["action_id", "approval_id", "event_type", "occurred_at_from", "occurred_at_to",
      "run_id", "step_id"] by
    decide

theorem auditFilterFingerprint_exists (lawful : support.Lawful) (query : AuditFilters) :
    ∃ fingerprint, auditFilterFingerprint support query = .ok fingerprint := by
  refine filterFingerprint_exists lawful AUDIT_FILTER_DOMAIN (auditFilterMembers_plain query) ?_
  simp [auditFilterMembers, written_optionalText, written_optionalTime]

theorem auditFilterFingerprint_injective (lawful : support.Lawful) (free : support.CollisionFree)
    {query other : AuditListQuery}
    (valid : query.validate = .ok ()) (otherValid : other.validate = .ok ())
    (left : auditFilterFingerprint support query.toAuditFilters = .ok fingerprint)
    (right : auditFilterFingerprint support other.toAuditFilters = .ok fingerprint) :
    query.toAuditFilters = other.toAuditFilters := by
  simp only [AuditListQuery.validate, bind_ok] at valid otherValid
  obtain ⟨_, runs, _, steps, _, actions, _, approvals, _, events, _⟩ := valid
  obtain ⟨_, otherRuns, _, otherSteps, _, otherActions, _, otherApprovals, _, otherEvents, _⟩ :=
    otherValid
  have agree := filterFingerprint_agrees lawful free (auditFilterMembers_plain _) left right rfl
  simp only [auditFilterMembers, List.forall₂_cons, List.Forall₂.nil, and_true,
    optionalTime_agrees lawful, optionalText_agrees (requireOptional_composed lawful runs)
      (requireOptional_composed lawful otherRuns),
    optionalText_agrees (requireOptional_composed lawful steps)
      (requireOptional_composed lawful otherSteps),
    optionalText_agrees (requireOptional_composed lawful actions)
      (requireOptional_composed lawful otherActions),
    optionalText_agrees (requireOptional_composed lawful approvals)
      (requireOptional_composed lawful otherApprovals),
    optionalText_agrees (requireOptional_composed lawful events)
      (requireOptional_composed lawful otherEvents)] at agree
  obtain ⟨action, approval, event, begins, ends, run, step⟩ := agree
  generalize query.toAuditFilters = filters at *
  generalize other.toAuditFilters = others at *
  cases filters
  cases others
  simp only at action approval event begins ends run step
  rw [action, approval, event, begins, ends, run, step]

end

end MarketingAgents
