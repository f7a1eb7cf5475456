import MarketingAgents.Domain.ApprovalProjection

namespace MarketingAgents

open Library

/-! # What an approval projection masks

Pointers are compiled into one schema, and the redactor follows its members.
Both are compared with the pointers themselves.
-/

/-- A declared token matches a step: the wildcard every one, any other the
member of its normalized name. -/
def tokenMatches (text : TextSupport) (token : String) : JsonStep → Bool
  | .member name => token = "*" || text.nfc token = name
  | .index _ => token = "*"

def pointerMatches (text : TextSupport) : List String → List JsonStep → Bool
  | [], [] => true
  | token :: tokens, step :: steps =>
    tokenMatches text token step && pointerMatches text tokens steps
  | _, _ => false

/-- The tokens that a step continues: the exact name wherever a pointer has it
there, the wildcard only where none does.  Tokens are compared as they are given,
so that one that is not composed meets no composed name. -/
def followPointers (paths : List (List String)) (taken : List String) (step : JsonStep) :
    Option (List String) :=
  if paths.any fun path => (taken ++ [step.token]).isPrefixOf path then
    some (taken ++ [step.token])
  else if paths.any fun path => (taken ++ ["*"]).isPrefixOf path then some (taken ++ ["*"])
  else none

/-- Following the pointers step by step meets the end of one of them. -/
def pointersReach (paths : List (List String)) : List String → List JsonStep → Bool
  | taken, [] => taken ∈ paths
  | taken, step :: rest => taken ∈ paths ||
      match followPointers paths taken step with
      | none => false
      | some next => pointersReach paths next rest

def sensitiveNameOn (text : TextSupport) (position : List JsonStep) : Bool :=
  position.any fun step => step.member?.any (isSensitiveKey text)

/-- The position holds the marker or lies below one. -/
def MaskedAt (value : JsonValue) (position : List JsonStep) : Prop :=
  ∃ front back, position = front ++ back ∧ value.at? front = some redactedMarker

/-- Every position of a payload that a pointer matches is masked in a projection. -/
def MatchedMasked (text : TextSupport) (paths : List (List String))
    (payload projected : JsonValue) : Prop :=
  ∀ pointer ∈ paths, ∀ position value, payload.at? position = some value →
    pointerMatches text pointer position → MaskedAt projected position

/-- Every position of a payload that a pointer matches is reached by following
the pointers, lies under a sensitive name, or holds the marker already. -/
def MatchedReached (text : TextSupport) (paths : List (List String)) (payload : JsonValue) : Prop :=
  ∀ pointer ∈ paths, ∀ position value, payload.at? position = some value →
    pointerMatches text pointer position →
    pointersReach paths [] position ∨ sensitiveNameOn text position ∨ value = redactedMarker

/-- Neither of two paths lies on or below the other. -/
def Apart (left right : List String) : Prop := ¬ left <+: right ∧ ¬ right <+: left

theorem decodePointer_nonempty
    (decoded : decodePointer fieldName pointer = .ok tokens) : tokens ≠ [] := by
  simp only [decodePointer, bind_ok, require_ok, pure_ok] at decoded
  obtain ⟨_, _, _, _, rfl⟩ := decoded
  simp [List.splitOn_ne_nil]

theorem decodePointers_apart
    (decoded : decodePointers fieldName known values = .ok paths) (apart : known.Pairwise Apart)
    (nonempty : ∀ path ∈ known, path ≠ []) : paths.Pairwise Apart ∧ ∀ path ∈ paths, path ≠ [] := by
  induction values generalizing known with
  | nil =>
      cases decoded
      exact ⟨apart, nonempty⟩
  | cons pointer rest ih =>
      simp only [decodePointers, bind_ok, require_ok] at decoded
      obtain ⟨tokens, first, _, disjoint, later⟩ := decoded
      have separate : ∀ path ∈ known, Apart path tokens := by
        intro path member
        have outside := List.all_eq_true.mp disjoint path member
        simp only [overlapping, Bool.not_eq_true', Bool.or_eq_false_iff] at outside
        simp only [Apart, ← List.isPrefixOf_iff_prefix, outside, Bool.false_eq_true,
          not_false_eq_true, and_self]
      refine ih later ?_ ?_
      · refine List.pairwise_append.mpr ⟨apart, List.pairwise_singleton _ _, ?_⟩
        intro path member other single
        rw [List.mem_singleton.mp single]
        exact separate path member
      · intro path member
        rcases List.mem_append.mp member with old | new
        · exact nonempty path old
        · rw [List.mem_singleton.mp new]
          exact decodePointer_nonempty first

theorem requireJsonPointers_apart (decoded : requireJsonPointers values fieldName = .ok paths) :
    paths.Pairwise Apart ∧ ∀ path ∈ paths, path ≠ [] := by
  simp only [requireJsonPointers, bind_ok, require_ok] at decoded
  obtain ⟨_, _, decoded⟩ := decoded
  exact decodePointers_apart decoded .nil (by simp)

namespace ProjectionSchema

variable {properties : List (String × ProjectionSchema)} {schema : ProjectionSchema}
  {name other token : String}
variable {tokens taken : List String} {marked : List String → Prop}

/-- The schema that exact tokens lead to. -/
def reach : ProjectionSchema → List String → Option ProjectionSchema
  | schema, [] => some schema
  | .sensitive, _ :: _ => none
  | .object properties, token :: rest =>
    (property? properties token).bind fun child => child.reach rest

theorem reach_object : (object properties).reach (token :: tokens) =
    (property? properties token).bind fun child => child.reach tokens := rfl

theorem reach_append (first second : List String) :
    schema.reach (first ++ second) = (schema.reach first).bind fun child => child.reach second := by
  induction first generalizing schema with
  | nil => rfl
  | cons token rest ih =>
      cases schema with
      | sensitive => rfl
      | object properties =>
          rw [List.cons_append, reach_object, reach_object, Option.bind_assoc]
          cases property? properties token with
          | none => rfl
          | some child => exact ih

theorem property?_setProperty : property? (setProperty properties name schema) other =
    if other = name then some schema else property? properties other := by
  unfold setProperty
  split
  · rename_i present
    induction properties with
    | nil => simp at present
    | cons entry rest ih =>
        by_cases head : entry.1 = name
        · by_cases same : other = name
          · subst same
            simp [property?, head]
          · have differs : name ≠ other := fun equal => same equal.symm
            have later : entry.1 ≠ other := by rw [head]; exact differs
            simp only [property?, List.map_cons, if_pos head, List.find?_cons,
              decide_eq_false differs, decide_eq_false later, if_neg same]
            by_cases again : rest.any fun entry => entry.1 = name
            · simpa [property?, if_neg same] using ih again
            · congr 2
              rw [List.map_congr_left (g := id), List.map_id]
              intro entry member
              have absent : entry.1 ≠ name := by
                intro equal
                exact again (List.any_eq_true.mpr ⟨entry, member, by simp [equal]⟩)
              simp [absent]
        · have again : rest.any fun entry => entry.1 = name := by simpa [head] using present
          by_cases same : entry.1 = other
          · have differs : other ≠ name := by rw [← same]; exact head
            simp [property?, same, differs]
          · simpa [property?, head, same] using ih again
  · rename_i absent
    rw [Bool.not_eq_true, List.any_eq_false] at absent
    simp only [property?, List.find?_append, Option.map_or]
    by_cases same : other = name
    · subst same
      have missing : properties.find? (fun entry => entry.1 = other) = none :=
        List.find?_eq_none.mpr absent
      simp [missing]
    · have differs : name ≠ other := fun equal => same equal.symm
      simp [same, differs]

/-- The members of a schema end exactly the marked paths and lead nowhere else. -/
structure Compiles (marked : List String → Prop)
    (properties : List (String × ProjectionSchema)) : Prop where
  ends : ∀ taken, (object properties).reach taken = some sensitive ↔ marked taken
  leads : ∀ taken, taken ≠ [] →
    (((object properties).reach taken).isSome ↔ ∃ path, marked path ∧ taken <+: path)

theorem Compiles.nonempty (compiles : Compiles marked properties) : ¬ marked [] := by
  intro root
  have ends := (compiles.ends []).mpr root
  cases ends

theorem Compiles.empty : Compiles (fun _ => False) [] where
  ends taken := by cases taken <;> simp [reach, property?]
  leads taken nonempty := by cases taken <;> simp_all [reach, property?]

theorem Compiles.child (compiles : Compiles marked properties) (inner : ¬ marked [token]) :
    Compiles (fun rest => marked (token :: rest)) (childProperties properties token) := by
  have through : ∀ taken, (object properties).reach (token :: taken) =
      (property? properties token).bind fun child => child.reach taken := fun _ => reach_object
  cases found : property? properties token with
  | none =>
      have unmarked : ∀ rest, ¬ marked (token :: rest) := by
        intro rest leads
        have ends := (compiles.ends _).mpr leads
        simp [through, found] at ends
      have same : (fun rest => marked (token :: rest)) = fun _ => False := by
        funext rest
        exact eq_false (unmarked rest)
      rw [childProperties, found, same]
      exact .empty
  | some schema =>
      cases schema with
      | sensitive => exact absurd ((compiles.ends [token]).mp (by simp [found, reach])) inner
      | object children =>
          rw [childProperties, found]
          refine ⟨fun taken => ?_, fun taken nonempty => ?_⟩
          · rw [← compiles.ends, through, found]
            rfl
          · have leads := compiles.leads (token :: taken) (by simp)
            rw [through, found] at leads
            refine leads.trans ⟨?_, ?_⟩
            · rintro ⟨path, ends, inside⟩
              obtain ⟨rest, rfl⟩ := inside
              exact ⟨taken ++ rest, ends, List.prefix_append _ _⟩
            · rintro ⟨rest, ends, inside⟩
              exact ⟨token :: rest, ends, by simpa using inside⟩

/-- Setting one member replaces what is compiled below its name. -/
theorem Compiles.set (compiles : Compiles marked properties) (below : List String → Prop)
    (ends : ∀ taken, schema.reach taken = some sensitive ↔ below taken)
    (leads : ∀ taken, (schema.reach taken).isSome ↔ ∃ path, below path ∧ taken <+: path)
    {all : List String → Prop} (nonempty : ¬ all [])
    (here : ∀ rest, all (token :: rest) ↔ below rest)
    (elsewhere : ∀ head rest, head ≠ token → (all (head :: rest) ↔ marked (head :: rest))) :
    Compiles all (setProperty properties token schema) := by
  refine ⟨fun taken => ?_, fun taken nonempty => ?_⟩
  · cases taken with
    | nil => simpa [reach] using nonempty
    | cons head rest =>
        rw [reach_object, property?_setProperty]
        split
        · rename_i same
          subst same
          rw [here]
          exact ends rest
        · rename_i differs
          rw [elsewhere head rest differs, ← compiles.ends, reach_object]
  · cases taken with
    | nil => exact absurd rfl nonempty
    | cons head rest =>
        rw [reach_object, property?_setProperty]
        have continues : ∀ {holds : List String → Prop},
            (∃ path, holds path ∧ head :: rest <+: path) ↔
              ∃ path, holds (head :: path) ∧ rest <+: path := by
          intro holds
          constructor
          · rintro ⟨path, holds, inside⟩
            obtain ⟨back, rfl⟩ := inside
            exact ⟨rest ++ back, holds, List.prefix_append _ _⟩
          · rintro ⟨path, holds, inside⟩
            exact ⟨head :: path, holds, by simpa using inside⟩
        rw [continues]
        split
        · rename_i same
          subst same
          simp only [here]
          exact leads rest
        · rename_i differs
          simp only [elsewhere head _ differs]
          rw [← continues, ← compiles.leads _ (by simp), reach_object]

/-- Inserting a path that lies apart from the marked ones marks it too. -/
theorem Compiles.insert (compiles : Compiles marked properties) (nonempty : tokens ≠ [])
    (apart : ∀ path, marked path → Apart path tokens) :
    Compiles (fun taken => marked taken ∨ taken = tokens) (insertPath tokens properties) := by
  induction tokens generalizing marked properties with
  | nil => exact absurd rfl nonempty
  | cons token rest ih =>
      cases rest with
      | nil =>
          refine compiles.set (fun rest => rest = []) ?_ ?_ (by simp [compiles.nonempty]) ?_ ?_
          · intro taken
            cases taken <;> simp [reach]
          · intro taken
            cases taken <;> simp [reach]
          · intro rest
            simp only [List.cons.injEq, true_and, or_iff_right_iff_imp]
            intro already
            exact absurd (by simp) (apart _ already).2
          · intro head rest differs
            simp [differs]
      | cons next rest =>
          have inner : ¬ marked [token] := fun already => (apart _ already).1 (by simp)
          have below := ih (compiles.child inner) (by simp) (by
            intro path already
            have separate := apart _ already
            exact ⟨fun inside => separate.1 (by simpa using inside),
              fun inside => separate.2 (by simpa using inside)⟩)
          refine compiles.set (fun taken => marked (token :: taken) ∨ taken = next :: rest)
            below.ends ?_ (by simp [compiles.nonempty]) ?_ ?_
          · intro taken
            cases taken with
            | nil => exact ⟨fun _ => ⟨next :: rest, .inr rfl, by simp⟩, fun _ => rfl⟩
            | cons head tail => exact below.leads _ (by simp)
          · intro taken
            simp
          · intro head taken differs
            simp [differs]

theorem Compiles.insertAll {known paths : List (List String)}
    (compiles : Compiles (· ∈ known) properties) (apart : (known ++ paths).Pairwise Apart)
    (nonempty : ∀ path ∈ paths, path ≠ []) :
    Compiles (· ∈ known ++ paths)
      (paths.foldl (fun properties tokens => insertPath tokens properties) properties) := by
  induction paths generalizing known properties with
  | nil => simpa using compiles
  | cons tokens rest ih =>
      have separate := (List.pairwise_append.mp apart).2.2
      have inserted := compiles.insert (nonempty tokens (by simp)) fun path member =>
        separate path member tokens (by simp)
      have same : (fun taken => taken ∈ known ∨ taken = tokens) = (· ∈ known ++ [tokens]) := by
        funext taken
        simp
      rw [same] at inserted
      have rest := ih inserted (by simpa using apart) fun path member =>
        nonempty path (by simp [member])
      simpa using rest

theorem compiles_of_accepted
    (decoded : requireJsonPointers fields "approval redaction fields" = .ok paths)
    (accepted : approvalRedactionSchema fields = .ok schema) :
    ∃ properties, schema = .object properties ∧ Compiles (· ∈ paths) properties := by
  obtain ⟨apart, nonempty⟩ := requireJsonPointers_apart decoded
  simp only [approvalRedactionSchema, decoded, bind_ok, pure_ok, Except.ok.injEq,
    exists_eq_left'] at accepted
  refine ⟨_, accepted.symm, ?_⟩
  have start : Compiles (· ∈ ([] : List (List String))) [] := by simpa using Compiles.empty
  simpa using start.insertAll (by simpa using apart) nonempty

/-- The redactor meets a sensitive schema on the way to a position. -/
def marksAt : Option ProjectionSchema → List JsonStep → Bool
  | schema, [] => requiresRedaction schema
  | schema, step :: rest => requiresRedaction schema ||
      marksAt (schema.bind fun schema => schema.child? step.token) rest

theorem marksAt_none (position : List JsonStep) : marksAt none position = false := by
  induction position with
  | nil => rfl
  | cons step rest ih => simpa [marksAt, requiresRedaction] using ih

theorem requiresRedaction_iff : requiresRedaction (some schema) = true ↔ schema = .sensitive := by
  cases schema <;> simp [requiresRedaction]

/-- Following the schema is following the pointers it was compiled from. -/
theorem Compiles.marksAt_eq {paths : List (List String)}
    (compiles : Compiles (· ∈ paths) properties)
    (reached : (object properties).reach taken = some schema) :
    marksAt (some schema) position = pointersReach paths taken position := by
  have here : requiresRedaction (some schema) = decide (taken ∈ paths) := by
    rw [Bool.eq_iff_iff, requiresRedaction_iff, decide_eq_true_eq, ← compiles.ends, reached]
    simp
  induction position generalizing taken schema with
  | nil => simpa [marksAt, pointersReach] using here
  | cons step rest ih =>
      have next : ∀ name, (object properties).reach (taken ++ [name]) = schema.reach [name] := by
        intro name
        rw [reach_append, reached]
        rfl
      have leads : ∀ name, (paths.any fun path => (taken ++ [name]).isPrefixOf path) =
          (schema.reach [name]).isSome := by
        intro name
        rw [Bool.eq_iff_iff, ← next, compiles.leads _ (by simp)]
        simp
      have further : ∀ {name : String} {child : ProjectionSchema},
        schema.reach [name] = some child →
          marksAt (some child) rest = pointersReach paths (taken ++ [name]) rest := by
        intro name child found
        refine ih (by rw [next, found]) ?_
        rw [Bool.eq_iff_iff, requiresRedaction_iff, decide_eq_true_eq, ← compiles.ends, next, found]
        simp
      rw [marksAt, pointersReach, here]
      congr 1
      simp only [followPointers, leads]
      cases schema with
      | sensitive => simp [reach, child?, marksAt_none]
      | object children =>
          have single : ∀ name, (object children).reach [name] = property? children name := by
            intro name
            rw [reach_object]
            cases property? children name <;> rfl
          simp only [Option.bind_some, child?, single]
          cases exact_ : property? children step.token with
          | some child => simpa using further (by rw [single, exact_])
          | none =>
              cases wildcard : property? children "*" with
              | some child => simpa using further (by rw [single, wildcard])
              | none => simp [marksAt_none]

end ProjectionSchema

section Redact

variable {text : TextSupport} {schema : Option ProjectionSchema} {fieldName : Option String}
variable {value child found : JsonValue} {step : JsonStep} {position : List JsonStep}

theorem child?_redactMembers :
    (JsonValue.object (redactMembers text schema members)).child? (.member name) =
      ((JsonValue.object members).child? (.member name)).map
        (redact text (schema.bind (·.child? name)) (some name)) := by
  induction members with
  | nil => rfl
  | cons entry rest ih =>
      obtain ⟨key, item⟩ := entry
      simp only [JsonValue.child?, redactMembers, List.find?_cons] at ih ⊢
      by_cases same : key = name
      · simp [same]
      · simpa [same] using ih

theorem getElem?_redactItems (start index : Nat) :
    (redactItems text schema start items)[index]? =
      items[index]?.map (redact text (schema.bind (·.child? (toString (start + index)))) none) := by
  induction items generalizing start index with
  | nil => simp [redactItems]
  | cons item rest ih =>
      cases index with
      | zero => simp [redactItems]
      | succ index =>
          simp only [redactItems, List.getElem?_cons_succ, ih]
          rw [Nat.add_right_comm, Nat.add_assoc]

theorem redact_masked (masked : ProjectionSchema.requiresRedaction schema = true ∨
      fieldName.any (isSensitiveKey text)) :
    redact text schema fieldName value = redactedMarker := by
  rw [redact.eq_def]
  rcases masked with sensitive | sensitive
  · rw [if_pos sensitive]
  · simp [sensitive]

theorem redact_marker (plain : ¬ ProjectionSchema.requiresRedaction schema = true)
    (ordinary : ¬ fieldName.any (isSensitiveKey text) = true) :
    redact text schema fieldName value = redactedMarker ↔ value = redactedMarker := by
  rw [redact.eq_def, if_neg plain, if_neg ordinary]
  cases value <;> simp [redactedMarker]

theorem child?_redact (plain : ProjectionSchema.requiresRedaction schema = false)
    (ordinary : fieldName.any (isSensitiveKey text) = false) :
    (redact text schema fieldName value).child? step = (value.child? step).map
      (redact text (schema.bind (·.child? step.token)) step.member?) := by
  rw [redact.eq_def, if_neg (by simp [plain]), if_neg (by simp [ordinary])]
  cases value with
  | scalar scalar => simp
  | array items =>
      cases step with
      | member name => rfl
      | index index =>
          have listed : (redactItems text schema 0 items)[index]? = _ :=
            getElem?_redactItems 0 index
          simpa [JsonValue.child?, JsonStep.token, JsonStep.member?] using listed
  | object members =>
      cases step with
      | member name => exact child?_redactMembers
      | index index => rfl

/-- A position is masked exactly where the schema or a name asks for it, or
where the value was the marker. -/
theorem maskedAt_redact (located : value.at? position = some found) :
    MaskedAt (redact text schema fieldName value) position ↔
      ProjectionSchema.marksAt schema position ∨ fieldName.any (isSensitiveKey text) ∨
        sensitiveNameOn text position ∨ found = redactedMarker := by
  induction position generalizing value schema fieldName with
  | nil =>
      obtain rfl := Option.some.inj located
      have only : MaskedAt (redact text schema fieldName value) [] ↔
          redact text schema fieldName value = redactedMarker := by
        constructor
        · rintro ⟨front, back, split, marker⟩
          obtain ⟨rfl, -⟩ := List.append_eq_nil_iff.mp split.symm
          exact Option.some.inj marker
        · intro marker
          exact ⟨[], [], rfl, by rw [JsonValue.at?_nil, marker]⟩
      rw [only, ProjectionSchema.marksAt]
      by_cases masked : ProjectionSchema.requiresRedaction schema = true ∨
        fieldName.any (isSensitiveKey text)
      · simp only [redact_masked masked, true_iff]
        exact masked.elim .inl fun sensitive => .inr (.inl sensitive)
      · rw [not_or] at masked
        have kept : redact text schema fieldName value = redactedMarker ↔ _ :=
          redact_marker masked.1 masked.2
        simp [masked.1, masked.2, kept, sensitiveNameOn]
  | cons step rest ih =>
      rw [ProjectionSchema.marksAt, sensitiveNameOn, List.any_cons]
      by_cases masked : ProjectionSchema.requiresRedaction schema = true ∨
        fieldName.any (isSensitiveKey text)
      · have above : MaskedAt (redact text schema fieldName value) (step :: rest) :=
          ⟨[], step :: rest, rfl, by rw [redact_masked masked, JsonValue.at?_nil]⟩
        simp only [above, true_iff]
        rcases masked with sensitive | sensitive
        · simp [sensitive]
        · exact .inr (.inl sensitive)
      · rw [not_or] at masked
        obtain ⟨child, below, rest_⟩ := Option.bind_eq_some_iff.mp located
        have inner : MaskedAt (redact text (schema.bind (·.child? step.token)) step.member? child)
          rest ↔ _ :=
          ih rest_
        have descends : MaskedAt (redact text schema fieldName value) (step :: rest) ↔
            MaskedAt (redact text (schema.bind (·.child? step.token)) step.member? child) rest := by
          have next : (redact text schema fieldName value).child? step = _ :=
            child?_redact (by simpa using masked.1) (by simpa using masked.2)
          rw [below, Option.map_some] at next
          constructor
          · rintro ⟨front, back, split, marker⟩
            cases front with
            | nil =>
                obtain rfl := (redact_marker masked.1 masked.2).mp (Option.some.inj marker)
                simp [redactedMarker] at below
            | cons head front =>
                obtain ⟨rfl, same⟩ := List.cons_eq_cons.mp split
                rw [JsonValue.at?_cons, next] at marker
                exact ⟨front, back, same, marker⟩
          · rintro ⟨front, back, rfl, marker⟩
            exact ⟨step :: front, back, rfl, by rw [JsonValue.at?_cons, next]; exact marker⟩
        rw [descends, inner]
        simp only [Bool.or_eq_true, masked.1, masked.2, Bool.false_eq_true, false_or,
          sensitiveNameOn, or_assoc]

end Redact

/-- Every position that a declared pointer matches is masked in the projection
if and only if it is reached by following the pointers, lies under a sensitive
name, or holds the marker already. -/
theorem matched_masked_iff {text : TextSupport} {action : CanonicalExternalAction text}
    {fields : List String} {paths : List (List String)} {projection : RedactedProjection}
    (decoded : requireJsonPointers fields "approval redaction fields" = .ok paths)
    (projected : expectedApprovalProjection text action fields = .ok projection) :
    MatchedMasked text paths (.object action.minimizedPayload) projection.payload ↔
      MatchedReached text paths (.object action.minimizedPayload) := by
  simp only [expectedApprovalProjection, bind_ok, pure_ok] at projected
  obtain ⟨_, _, schema, accepted, rfl⟩ := projected
  obtain ⟨properties, rfl, compiles⟩ := ProjectionSchema.compiles_of_accepted decoded accepted
  have follows : ∀ position, ProjectionSchema.marksAt (some (.object properties)) position =
      pointersReach paths [] position := fun position => compiles.marksAt_eq rfl
  have masked : ∀ {position value}, (JsonValue.object action.minimizedPayload).at? position =
    some value →
      (MaskedAt (redact text (some (.object properties)) none (.object action.minimizedPayload))
        position ↔
        pointersReach paths [] position ∨ sensitiveNameOn text position ∨
            value = redactedMarker) := by
    intro position value located
    have redacted : MaskedAt (redact text (some (.object properties)) none
        (.object action.minimizedPayload)) position ↔ _ := maskedAt_redact located
    simpa [follows] using redacted
  constructor
  · intro holds pointer declared position value located matched
    exact (masked located).mp (holds pointer declared position value located matched)
  · intro reached pointer declared position value located matched
    exact (masked located).mpr (reached pointer declared position value located matched)

namespace ShadowedWildcard

/-- The text operations on names of plain lower-case letters. -/
def plainText : TextSupport where
  nfc := id
  strip := id
  lower := id
  nfc_idempotent _ := rfl

def action : CanonicalExternalAction plainText where
  actionType := "enroll"
  capabilityId := "cap.events.enroll-attendee"
  connectorFamily := "events"
  bindingId := "binding"
  minimizedPayload := [("guest", .object [("note", .scalar (.string "private"))])]
  payloadNormalized := rfl

/-- The wildcard asks for the note of every member, but the guest has an exact pointer beside it. -/
def fields : List String := ["/guest/city", "/*/note"]

def paths : List (List String) := [["guest", "city"], ["*", "note"]]

theorem paths_decoded : requireJsonPointers fields "approval redaction fields" = .ok paths := by
  decide

def projection : RedactedProjection where
  actionType := "enroll"
  capabilityId := "cap.events.enroll-attendee"
  connectorFamily := "events"
  bindingId := "binding"
  destination := "configured destination via binding"
  payload := .object action.minimizedPayload

theorem projection_expected : expectedApprovalProjection plainText action fields =
    .ok projection := by
  rfl

def notePosition : List JsonStep := [.member "guest", .member "note"]

theorem note_unmasked : ¬ MaskedAt projection.payload notePosition := by
  rintro ⟨front, back, split, marker⟩
  have shown : projection.payload.at? notePosition = some (.scalar (.string "private")) := rfl
  match front, split with
  | [], _ => cases marker
  | [_], split =>
      obtain ⟨rfl, _⟩ := List.cons_eq_cons.mp split
      cases marker
  | [_, _], split =>
      obtain ⟨rfl, rest⟩ := List.cons_eq_cons.mp split
      obtain ⟨rfl, _⟩ := List.cons_eq_cons.mp rest
      have same := shown.symm.trans marker
      simp [redactedMarker] at same
  | _ :: _ :: _ :: _, split => simp [notePosition] at split

/-- The note that a declared wildcard matches is shown to the approver. -/
theorem declared_note_shown :
    ¬ ∀ (text : TextSupport) (action : CanonicalExternalAction text) (fields : List String)
      (paths : List (List String)) (projection : RedactedProjection),
      requireJsonPointers fields "approval redaction fields" = .ok paths →
      expectedApprovalProjection text action fields = .ok projection →
      MatchedMasked text paths (.object action.minimizedPayload) projection.payload := by
  intro masked
  have all := masked plainText action fields paths projection paths_decoded projection_expected
  exact note_unmasked (all ["*", "note"] (by decide) notePosition
    (.scalar (.string "private")) rfl rfl)

theorem matched_masked_iff_of_guest :
    MatchedMasked plainText paths (.object action.minimizedPayload) projection.payload ↔
      MatchedReached plainText paths (.object action.minimizedPayload) :=
  matched_masked_iff paths_decoded projection_expected

end ShadowedWildcard

end MarketingAgents
