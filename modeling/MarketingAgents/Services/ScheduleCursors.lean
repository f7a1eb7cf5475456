import MarketingAgents.Services.CursorCanonicity

namespace MarketingAgents

open Library
open Library.JsonText

/-! # Schedule cursors

A schedule cursor is compared with what its key is written as, so it has one
spelling. Those of a page's last item are short enough to be sent back.
-/

/-- Text that is written without escapes. -/
def Unescaped (value : String) : Prop :=
  ∀ character ∈ value.toList, escapeChar character = [character]

section

theorem unescaped_of_all {value : String}
    (all : (value.toList.all fun character => escapeChar character = [character]) = true) :
      Unescaped value := by
  simpa only [Unescaped, List.all_eq_true, decide_eq_true_eq] using all

theorem unescaped_append (leftPlain : Unescaped left) (rightPlain : Unescaped right) :
    Unescaped (left ++ right) := by
  rw [Unescaped, String.toList_append, List.forall_mem_append]
  exact ⟨leftPlain, rightPlain⟩

theorem unescaped_alphanumeric {character : Char} (letter : alphanumeric character = true) :
    escapeChar character = [character] := by
  have every : ((List.range 128).all fun code => !alphanumeric (Char.ofNat code) ||
      decide (escapeChar (Char.ofNat code) = [Char.ofNat code])) = true := by decide +kernel
  have here := List.all_eq_true.mp every character.toNat
    (List.mem_range.mpr (alphanumeric_plain letter))
  rw [Char.ofNat_toNat, letter] at here
  simpa using here

theorem requireId_unescaped (stable : requireId value fieldName = .ok done) :
    Unescaped value := by
  rw [requireId, require_ok, List.all_eq_true] at stable
  intro character member
  have known := stable.2.2 character member
  simp only [Bool.or_eq_true, decide_eq_true_eq] at known
  rcases known with letter | mark
  · exact unescaped_alphanumeric letter
  · have marks : ([':', '.', '_', '/', '-'].all fun mark => decide (escapeChar mark = [mark])) =
      true := by decide +kernel
    simpa using List.all_eq_true.mp marks character mark

theorem unescaped_digits (width value : Nat) :
    ∀ character ∈ writeDigits width value, escapeChar character = [character] := by
  induction width generalizing value with
  | zero => simp [writeDigits]
  | succ width ih =>
      have digits : ∀ digit < 10, escapeChar (Nat.digitChar digit) = [Nat.digitChar digit] := by
        decide
      rw [writeDigits, List.forall_mem_append, List.forall_mem_singleton]
      exact ⟨ih _, digits _ (Nat.mod_lt value (by decide))⟩

theorem writeDigits_length (width value : Nat) : (writeDigits width value).length = width := by
  induction width generalizing value with
  | zero => rfl
  | succ width ih => rw [writeDigits, List.length_append, ih, List.length_singleton]

theorem isoformat_short (time : UtcTime) :
    Unescaped time.isoformat ∧ PlainText time.isoformat ∧ time.isoformat.toList.length ≤ 32 := by
  have offset : ZonedDatetime.writeOffset (some 0) = "+00:00".toList := by decide +kernel
  have offsetUnescaped : ∀ character ∈ "+00:00".toList, escapeChar character = [character] :=
    unescaped_of_all (by decide +kernel)
  have offsetPlain : ∀ character ∈ "+00:00".toList, character.toNat < 128 :=
    plain_of_all (by decide)
  refine ⟨?_, ?_, ?_⟩
  · simp only [Unescaped, UtcTime.isoformat, UtcTime.isoformatMicroseconds,
      ZonedDatetime.isoformat, offset]
    split <;>
      simp only [String.toList_ofList, List.forall_mem_append, List.forall_mem_cons] <;>
      repeat' apply And.intro
    all_goals first | exact unescaped_digits _ _ | exact offsetUnescaped | decide +kernel
  · simp only [PlainText, UtcTime.isoformat, UtcTime.isoformatMicroseconds,
      ZonedDatetime.isoformat, offset]
    split <;>
      simp only [String.toList_ofList, List.forall_mem_append, List.forall_mem_cons] <;>
      repeat' apply And.intro
    all_goals first | exact writeDigits_plain _ _ | exact offsetPlain | decide
  · simp only [UtcTime.isoformat, UtcTime.isoformatMicroseconds, ZonedDatetime.isoformat, offset]
    split <;>
      simp [String.toList_ofList, List.length_append, List.length_cons, writeDigits_length]

end

section

variable {φ : Type} {support : CursorSupport φ}

theorem writes_unescaped (lawful : support.Lawful) (unescaped : Unescaped value)
    (plain : PlainText value) :
    (PythonValue.str value : PythonValue φ).Writes support.text support.numbers
      (value.toList.length + 2) := by
  refine ⟨.str (support.text.nfc value), .scalar (.string (support.text.nfc value)), rfl, rfl, ?_⟩
  have escaped : value.toList.flatMap escapeChar = value.toList := by
    rw [List.flatMap_congr unescaped]
    exact List.flatMap_singleton' _
  have mark : quote.utf8Size = 1 := by decide
  rw [lawful.keeps _ plain, valueSize, printValue, printScalar, printString, escaped, textSize_cons,
    textSize_append, textSize_plain plain, textSize_cons, textSize_nil, mark]
  omega

/-- A key whose texts are short has a short cursor. -/
structure ShortKey (scope : String) (key : List String) : Prop where
  scopeText : Unescaped scope ∧ PlainText scope ∧ scope.toList.length ≤ 252
  keyTexts : ∀ item ∈ key, Unescaped item ∧ PlainText item ∧ item.toList.length ≤ 240
  count : key.length ≤ 2

theorem schedulePayload_names (scope : String) (key : List String) :
    PlainNames ((schedulePayload scope key : List (String × PythonValue φ)).map Prod.fst) :=
  show PlainNames ["scope", "key", "version"] by decide

theorem encodeScheduleCursor_exists (lawful : support.Lawful) (short : ShortKey scope key) :
    ∃ cursor, encodeScheduleCursor support scope key = .ok cursor ∧ 1 ≤ cursor.toList.length ∧
      cursor.toList.length ≤ 2048 ∧ ∀ character ∈ cursor.toList, character.toNat < 128 := by
  have items : (PythonValue.strings key : PythonValue φ).Writes support.text support.numbers
      ((key.map PythonValue.str : List (PythonValue φ)).length * (242 + 1) + 2) := by
    refine writes_sequence fun item member => ?_
    obtain ⟨text, listed, rfl⟩ := List.mem_map.mp member
    obtain ⟨unescaped, plain, size⟩ := short.keyTexts text listed
    exact (writes_unescaped lawful unescaped plain).mono (Nat.add_le_add_right size 2)
  have version : (PythonValue.int 1 : PythonValue φ).Writes support.text support.numbers 4 :=
    writes_nat lawful.digits
  have record := writes_record lawful.keeps (schedulePayload_names scope key)
    (.cons (writes_unescaped lawful short.scopeText.1 short.scopeText.2.1)
      (.cons items (.cons version .nil)))
  obtain ⟨written, accepted, size⟩ := record.bytes
  have length : written.toByteArray.data.toList.length ≤ 1512 := by
    have names : namesSize ((schedulePayload scope key : List (String × PythonValue φ)).map
      Prod.fst) = 102 :=
      show namesSize ["scope", "key", "version"] = 102 by decide
    have count := short.count
    have scopeSize := short.scopeText.2.2
    rw [names] at size
    simp only [List.length_map, List.sum_cons, List.sum_nil] at size
    have bytes : written.toByteArray.data.toList.length = written.utf8ByteSize := rfl
    omega
  obtain ⟨plain, token⟩ := Base64Url.token_plain written.toByteArray.data.toList
  refine ⟨_, encodePayload_ok.mpr ⟨_, accepted, rfl⟩, ?_, ?_, ?_⟩
  · simp [cursorToken, schedulePrefix]
  · have start : schedulePrefix.toList.length = 12 := by decide
    rw [cursorToken, String.toList_append, List.length_append, String.toList_ofList, start]
    omega
  · have start : ∀ character ∈ schedulePrefix.toList, character.toNat < 128 :=
      plain_of_all (by decide)
    rw [cursorToken, String.toList_append, String.toList_ofList, List.forall_mem_append]
    exact ⟨start, plain⟩

theorem mapM_text? (key : List String) : (key.map PythonValue.str).mapM
    (PythonValue.text? : PythonValue φ → Option String) = some key := by
  induction key with
  | nil => rfl
  | cons text rest ih =>
      rw [List.map_cons, List.mapM_cons, ih]
      rfl

theorem strings?_eq_some {decoded : PythonValue φ}
    (found : decoded.item? name = some (.strings key)) : decoded.strings? name = some key := by
  rw [PythonValue.strings?, found]
  exact mapM_text? key

theorem strings_settled (lawful : support.Lawful) {key : List String}
    {others : List (PythonValue φ)} (plain : ∀ item ∈ key, PlainText item)
    (settled : ∀ item ∈ others, item.Settled support.text support.numbers)
    (each : List.Forall₂ (fun item other => item.Agrees support.text other)
      (key.map PythonValue.str) others) :
    others = key.map PythonValue.str := by
  induction key generalizing others with
  | nil => simpa using each
  | cons text rest ih =>
      obtain ⟨other, tail, one, more, rfl⟩ := List.forall₂_cons_left_iff.mp each
      obtain ⟨settledOther, settledTail⟩ := List.forall_mem_cons.mp settled
      obtain ⟨textPlain, restPlain⟩ := List.forall_mem_cons.mp plain
      rw [(leaf_agrees_settled rfl settledOther).mp one, PythonValue.nfcAll,
        lawful.keeps _ textPlain, ih restPlain settledTail more]
      rfl

theorem schedule_carries (lawful : support.Lawful) {key : List String}
    (scopePlain : PlainText scope) (keyPlain : ∀ item ∈ key, PlainText item)
    (encoded : encodeScheduleCursor support scope key = .ok cursor) :
    ∃ raw decoded, Carries support schedulePrefix cursor raw decoded ∧
      decoded.hasExactly ["scope", "key", "version"] = true ∧
      decoded.item? "scope" = some (.str scope) ∧
      decoded.item? "key" = some (.strings key) ∧ decoded.item? "version" = some (.int 1) := by
  obtain ⟨raw, written, token⟩ := encodePayload_ok.mp encoded
  obtain ⟨decoded, loaded, settled, rewritten⟩ := lawful.loaded written
  have agrees := (canonicalJsonBytes_eq_iff written rewritten).mp rfl
  obtain ⟨exactly, found⟩ :=
    (record_agrees_settled lawful.keeps (schedulePayload_names scope key) settled).mp agrees
  simp only [schedulePayload, List.forall_mem_cons, List.not_mem_nil, false_implies, implies_true,
    and_true] at found
  obtain ⟨⟨scopeItem, scopeFound, scopeAgrees⟩, ⟨keyItem, keyFound, keyAgrees⟩, version,
    versionFound, versionAgrees⟩ := found
  refine ⟨raw, decoded, ⟨token, loaded⟩, exactly, ?_, ?_, ?_⟩
  · rw [scopeFound, (leaf_agrees_settled rfl (item?_settled settled scopeFound)).mp scopeAgrees,
      PythonValue.nfcAll, lawful.keeps _ scopePlain]
  · obtain ⟨others, rfl, each⟩ := sequence_agrees_settled.mp keyAgrees
    have itemsSettled : ∀ item ∈ others, item.Settled support.text support.numbers :=
      items_settled.mp (item?_settled settled keyFound)
    rw [keyFound, strings_settled lawful keyPlain itemsSettled each]
    rfl
  · rw [versionFound, (leaf_agrees_settled rfl (item?_settled settled versionFound)).mp
      versionAgrees]
    rfl

theorem scheduleKey_eq_some (found : scheduleKey support scope cursor = some key) :
    schedulePrefix.toList <+: cursor.toList ∧ encodeScheduleCursor support scope key =
      .ok cursor := by
  simp only [scheduleKey, Option.bind_eq_bind, Option.bind_eq_some_iff, Option.guard_eq_some',
    Option.pure_def, Option.some.injEq, toOption_eq_some] at found
  obtain ⟨_, started, _, _, _, _, _, _, _, _, _, _, _, _, _, _, written, encoded, _, same, _, _, _,
    _, _, _, rfl⟩ := found
  subst same
  exact ⟨started, encoded⟩

theorem Carries.scheduleScope (carries : Carries support schedulePrefix cursor raw decoded)
    (found : scheduleKey support scope cursor = some key) :
    decoded.item? "scope" = some (.str scope) := by
  have started : cursor.toList = schedulePrefix.toList ++ Base64Url.token raw.data.toList := by
    rw [← carries.token, cursorToken, String.toList_append, String.toList_ofList]
  simp only [scheduleKey, Option.bind_eq_bind, Option.bind_eq_some_iff, Option.guard_eq_some',
    started, List.drop_left,
    Base64Url.decode_pad_token, Option.some.injEq, string?_eq_some] at found
  obtain ⟨_, _, _, rfl, value, loaded, _, _, _, _, _, ⟨_, named⟩, _⟩ := found
  rwa [Option.mem_unique loaded carries.loads] at named

/-- A key that its reader accepts once it is found. -/
structure AcceptedKey (scope : String) (key : List String) : Prop where
  count : key.length = if scope = "schedules" then 1 else 2
  identity : ∃ identity, key.getLast? = some identity ∧
    requireId identity "schedule cursor identity" = .ok ()
  configured : scope = "schedules" → key.head?.any scheduleIdText = true

theorem scheduleKey_encoded (lawful : support.Lawful) {key : List String}
    (scopePlain : PlainText scope)
    (keyPlain : ∀ item ∈ key, PlainText item) (accepted : AcceptedKey scope key)
    (encoded : encodeScheduleCursor support scope key = .ok cursor) :
      scheduleKey support scope cursor = some key := by
  obtain ⟨raw, decoded, carries, exactly, scopeFound, keyFound, version⟩ :=
    schedule_carries lawful scopePlain keyPlain encoded
  obtain ⟨identity, last, stable⟩ := accepted.identity
  have started : cursor.toList = schedulePrefix.toList ++ Base64Url.token raw.data.toList := by
    rw [← carries.token, cursorToken, String.toList_append, String.toList_ofList]
  simp only [scheduleKey, Option.bind_eq_bind, Option.bind_eq_some_iff, Option.guard_eq_some',
    Option.pure_def, Option.some.injEq, toOption_eq_some, started, List.drop_left]
  exact ⟨(), List.prefix_append _ _, _, Base64Url.decode_pad_token _, decoded, carries.loads,
    (), exactly, 1, integer?_eq_some.mpr version, (), ⟨rfl, string?_eq_some.mpr scopeFound⟩, key,
      strings?_eq_some keyFound, (),
    accepted.count, cursor, encoded, (), rfl, identity, last, (), stable, (),
      accepted.configured, rfl⟩

/-- The last item of a page of schedules, or of a page of occurrences of a schedule. -/
inductive ScheduleItem : String → List String → Prop where
  | schedule (id : String) (configured : scheduleIdText id = true) : ScheduleItem "schedules" [id]
  | occurrence (scheduleId : String) (due : UtcTime) (id : String)
      (scheduleStable : requireId scheduleId "schedule ID" = .ok ())
      (stable : requireId id "occurrence ID" = .ok ()) :
      ScheduleItem ("occurrences:" ++ scheduleId) [due.isoformat, id]

theorem scheduleIdText_stable (configured : scheduleIdText value = true) (fieldName : String) :
    requireId value fieldName = .ok () := by
  simp only [scheduleIdText, Bool.and_eq_true, List.isPrefixOf_iff_prefix, digestText,
    decide_eq_true_eq, List.all_eq_true] at configured
  obtain ⟨⟨rest, split⟩, length, digits⟩ := configured
  rw [← split, List.drop_left] at length digits
  have start : "schedule.configuration.".toList.head? = some 's' ∧
    "schedule.configuration.".toList.length = 23 ∧
      ("schedule.configuration.".toList.all fun character =>
        alphanumeric character || character ∈ [':', '.', '_', '/', '-']) = true := by decide +kernel
  obtain ⟨head, size, all⟩ := start
  rw [requireId, require_ok, ← split, List.length_append, size, length, List.all_append, all,
    List.head?_append, head, Option.some_or]
  refine ⟨by decide, by decide, ?_⟩
  rw [Bool.true_and, List.all_eq_true]
  intro character member
  have digit := digits character member
  simp only [MarketingAgents.hexadecimal, Bool.or_eq_true, Bool.and_eq_true,
    decide_eq_true_eq] at digit
  simp only [alphanumeric, Bool.or_eq_true, Bool.and_eq_true, decide_eq_true_eq]
  rcases digit with digit | letter
  · exact .inl (.inr digit)
  · exact .inl (.inl (.inr ⟨letter.1, letter.2.trans (by decide)⟩))

variable {scope : String} {key : List String}

theorem requireId_key (stable : requireId value fieldName = .ok done) :
    Unescaped value ∧ PlainText value ∧ value.toList.length ≤ 240 :=
  ⟨requireId_unescaped stable, requireId_plain stable⟩

theorem ScheduleItem.short (item : ScheduleItem scope key) : ShortKey scope key := by
  cases item with
  | schedule id configured =>
      refine ⟨⟨unescaped_of_all (by decide +kernel), plain_of_all (by decide), by decide⟩, ?_,
        by simp⟩
      rw [List.forall_mem_singleton]
      exact requireId_key (scheduleIdText_stable configured "schedule ID")
  | occurrence scheduleId due id scheduleStable stable =>
      have start : Unescaped "occurrences:" ∧ PlainText "occurrences:" :=
        ⟨unescaped_of_all (by decide +kernel), plain_of_all (by decide)⟩
      obtain ⟨unescaped, plain, size⟩ := requireId_key scheduleStable
      obtain ⟨dueUnescaped, duePlain, dueSize⟩ := isoformat_short due
      refine ⟨⟨unescaped_append start.1 unescaped, plainText_append start.2 plain, ?_⟩, ?_, by simp⟩
      · rw [String.toList_append, List.length_append]
        exact Nat.add_le_add (show "occurrences:".toList.length ≤ 12 by decide) size
      · rw [List.forall_mem_cons, List.forall_mem_singleton]
        exact ⟨⟨dueUnescaped, duePlain, dueSize.trans (by decide)⟩, requireId_key stable⟩

theorem ScheduleItem.accepted (item : ScheduleItem scope key) : AcceptedKey scope key := by
  cases item with
  | schedule id configured =>
      exact ⟨rfl, ⟨id, rfl, scheduleIdText_stable configured _⟩, fun _ => configured⟩
  | occurrence scheduleId due id scheduleStable stable =>
      have other : "occurrences:" ++ scheduleId ≠ "schedules" := by
        intro same
        have heads := congrArg (fun text => text.toList.head?) same
        have first : "occurrences:".toList.head? = some 'o' ∧
          "schedules".toList.head? = some 's' := by decide
        rw [String.toList_append, List.head?_append, first.1, first.2, Option.some_or] at heads
        exact absurd heads (by decide)
      refine ⟨?_, ⟨id, rfl, requireId_ok _ stable⟩, fun same => absurd same other⟩
      rw [if_neg other]
      rfl

end

end MarketingAgents
