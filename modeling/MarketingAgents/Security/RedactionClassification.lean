import MarketingAgents.Domain.CanonicalWriting
import MarketingAgents.Domain.DataClassification

namespace MarketingAgents

open Library

/-! # Masking and classification

The redactor for values with secrets and arbitrary schemas, and the label of the
same value. Both follow one schema along one value.
-/

namespace DataClassification

/-- The place in the order of protection. -/
def rank : DataClassification → Nat
  | «public» => 0
  | internal => 1
  | personal => 2
  | sensitive => 3
  | secret => 4

def ofValue? (value : String) : Option DataClassification :=
  [«public», internal, personal, sensitive, secret].find? fun known => known.value = value

def redacted : List String := [personal.value, sensitive.value, secret.value]

end DataClassification

def higherClassification (left : DataClassification) :
    Option DataClassification → DataClassification
  | none => left
  | some right => if left.rank < right.rank then right else left

/-- A secret whose display forms never reveal it. -/
structure SecretValue where
  value : String
  nonempty : value ≠ ""

/-- The values that are shown as they are. -/
inductive PythonScalar (φ : Type) where
  | null
  | bool (value : Bool)
  | int (value : Int)
  | float (value : φ)
  | str (text : String)

def PythonScalar.toValue {φ : Type} : PythonScalar φ → PythonValue φ
  | null => .null
  | bool value => .bool value
  | int value => .int value
  | float value => .float value
  | str text => .str text

/-- What a caller may pass for redaction; the keys of a mapping as they print. -/
inductive RawValue (φ : Type) where
  | scalar (value : PythonScalar φ)
  | secret (value : SecretValue)
  | mapping (members : List (String × RawValue φ))
  | sequence (items : List (RawValue φ))
  | other (typeName : String)

/-- The members of one JSON schema. -/
abbrev JsonSchema := List (String × JsonValue)

namespace JsonSchema

variable (schema : JsonSchema)

def get? (name : String) : Option JsonValue := (JsonValue.object schema).child? (.member name)

def mapping? : JsonValue → Option JsonSchema
  | .object members => some members
  | _ => none

def flagged : Bool := schema.get? "x-sensitive" = some (.scalar (.bool true))

/-- The member of an inner mapping that is one itself: the exact one, else the wildcard. -/
def property? (name : String) : Option JsonSchema :=
  ((schema.get? "properties").bind mapping?).bind fun properties =>
    ((get? properties name).bind mapping?).or ((get? properties "*").bind mapping?)

def prefixItem? (index : Nat) : Option JsonSchema :=
  match schema.get? "prefixItems" with
  | some (.array items) => items[index]?.bind mapping?
  | _ => none

def item? (index : Nat) : Option JsonSchema :=
  (schema.prefixItem? index).or
    (((schema.get? "items").bind mapping?).or (schema.property? (toString index)))

/-- The schema of the value behind a step. -/
def child? : JsonStep → Option JsonSchema
  | .member name => schema.property? name
  | .index index => schema.item? index

end JsonSchema

def schemaRequiresRedaction : Option JsonSchema → Except Rejection Bool
  | none => .ok false
  | some schema =>
      if schema.flagged then .ok true
      else
        match schema.get? "x-data-classification" with
        | some (.scalar (.string label)) => .ok (decide (label ∈ DataClassification.redacted))
        | some (.array _) | some (.object _) => reject "TypeError" "unhashable type"
        | _ => .ok false

def schemaClassification : Option JsonSchema → Except Rejection (Option DataClassification)
  | none => .ok none
  | some schema =>
      match schema.get? "x-data-classification" with
      | none | some (.scalar .null) => .ok (if schema.flagged then some .sensitive else none)
      | some (.scalar (.string label)) => do
          let known ← requireSome (DataClassification.ofValue? label)
            "ValueError" "schema data classification is invalid"
          return some known
      | some _ => reject "ValueError" "schema data classification is invalid"

section

variable (text : TextSupport)

def normalizedKey (key : String) : List Char :=
  (text.lower (text.strip key)).toList.map fun character => if character = '-' then '_'
    else character

def containsFragment (fragments : List String) (normalized : List Char) : Bool :=
  fragments.any fun fragment => normalized.tails.any fun tail => fragment.toList.isPrefixOf tail

def personalKeyFragments : List String := ["email", "full_name", "phone"]

def secretKeyNames : List String :=
  ["access_token", "api_key", "api_token", "authorization", "bearer_token", "credential",
    "password", "private_key", "secret", "session_key", "token"]

def secretKeyFragments : List String :=
  ["api_key", "apikey", "authorization", "credential", "password", "private_key", "secret",
    "session_key", "token"]

def keyClassification : Option String → Option DataClassification
  | none => none
  | some fieldName =>
      let normalized := normalizedKey text fieldName
      if secretKeyNames.any fun name => name.toList = normalized then some .secret
      else if containsFragment secretKeyFragments normalized then some .sensitive
      else if containsFragment personalKeyFragments normalized then some .personal
      else if isSensitiveKey text fieldName then some .sensitive
      else none

/-- Whether a position is masked before its value is looked at. -/
def ownMask (schema : Option JsonSchema) (fieldName : Option String) : Except Rejection Bool := do
  let required ← schemaRequiresRedaction schema
  return required || fieldName.any (isSensitiveKey text)

/-- The label of a position before its value is looked at. -/
def ownClassification (schema : Option JsonSchema) (fieldName : Option String) :
    Except Rejection DataClassification := do
  let labelled ← schemaClassification schema
  return higherClassification (higherClassification .internal labelled)
    (keyClassification text fieldName)

def redactedStr {φ : Type} : PythonValue φ := .str "[REDACTED]"

variable {φ : Type}

/-- A new member of a dictionary; a later member of the same name keeps its value and moves here. -/
def putMember (name : String) (value : PythonValue φ)
    (others : List (Option String × PythonValue φ)) : List (Option String × PythonValue φ) :=
  match others.find? fun entry => entry.1 = some name with
  | some (_, later) => (some name, later) :: others.filter fun entry => entry.1 ≠ some name
  | none => (some name, value) :: others

namespace RawValue

mutual

/-- A recursively redacted copy of a value. -/
def redact (schema : Option JsonSchema) (fieldName : Option String) (value : RawValue φ) :
    Except Rejection (PythonValue φ) := do
  let masked ← ownMask text schema fieldName
  if masked then return redactedStr
  else
    match value with
    | .scalar plain => return plain.toValue
    | .secret _ => return redactedStr
    | .mapping members => do
        let redacted ← redactMembers schema members
        return .mapping redacted
    | .sequence items => do
        let redacted ← redactItems schema 0 items
        return .sequence redacted
    | .other typeName => return .str ("<" ++ typeName ++ ">")

def redactMembers (schema : Option JsonSchema) :
    List (String × RawValue φ) → Except Rejection (List (Option String × PythonValue φ))
  | [] => .ok []
  | (name, item) :: rest => do
      let redacted ← redact (schema.bind (·.child? (.member name))) (some name) item
      let others ← redactMembers schema rest
      return putMember name redacted others

def redactItems (schema : Option JsonSchema) (index : Nat) :
    List (RawValue φ) → Except Rejection (List (PythonValue φ))
  | [] => .ok []
  | item :: rest => do
      let redacted ← redact (schema.bind (·.child? (.index index))) none item
      let others ← redactItems schema (index + 1) rest
      return redacted :: others

end

mutual

/-- The highest label of a schema or a name in a value. -/
def redactionClassification (schema : Option JsonSchema) (fieldName : Option String)
    (value : RawValue φ) : Except Rejection DataClassification := do
  let own ← ownClassification text schema fieldName
  match value with
  | .secret _ => return .secret
  | .mapping members => membersClassification schema own members
  | .sequence items => itemsClassification schema own 0 items
  | .scalar _ | .other _ => return own

def membersClassification (schema : Option JsonSchema) (known : DataClassification) :
    List (String × RawValue φ) → Except Rejection DataClassification
  | [] => .ok known
  | (name, item) :: rest => do
      let child ← redactionClassification (schema.bind (·.child? (.member name))) (some name) item
      membersClassification schema (higherClassification known (some child)) rest

def itemsClassification (schema : Option JsonSchema) (known : DataClassification) (index : Nat) :
    List (RawValue φ) → Except Rejection DataClassification
  | [] => .ok known
  | item :: rest => do
      let child ← redactionClassification (schema.bind (·.child? (.index index))) none item
      itemsClassification schema (higherClassification known (some child)) (index + 1) rest

end

end RawValue

end

namespace PythonValue

def child? (value : PythonValue φ) : JsonStep → Option (PythonValue φ)
  | .member name => value.item? name
  | .index index =>
      match value with
      | .sequence items => items[index]?
      | _ => none

def at? (value : PythonValue φ) : List JsonStep → Option (PythonValue φ)
  | [] => some value
  | step :: rest => (value.child? step).bind fun child => child.at? rest

theorem at?_cons {value : PythonValue φ} {step : JsonStep} {rest : List JsonStep} :
    value.at? (step :: rest) = (value.child? step).bind fun child => child.at? rest := rfl

/-- The position holds the marker or lies below one. -/
def MaskedAt (value : PythonValue φ) (position : List JsonStep) : Prop :=
  ∃ front back, position = front ++ back ∧ value.at? front = some redactedStr

end PythonValue

namespace RawValue

/-- The member that a dictionary keeps under a name. -/
def lastMember : List (String × RawValue φ) → String → Option (RawValue φ)
  | [], _ => none
  | (key, item) :: rest, name => (lastMember rest name).or (if key = name then some item else none)

def child? (value : RawValue φ) : JsonStep → Option (RawValue φ)
  | .member name =>
      match value with
      | .mapping members => lastMember members name
      | _ => none
  | .index index =>
      match value with
      | .sequence items => items[index]?
      | _ => none

end RawValue

/-- A value with the schema and the name that it is visited with. -/
structure RedactionVisit (φ : Type) where
  schema : Option JsonSchema
  fieldName : Option String
  value : RawValue φ

namespace RedactionVisit

variable (text : TextSupport) (visit : RedactionVisit φ)

def child? (step : JsonStep) : Option (RedactionVisit φ) :=
  (visit.value.child? step).map fun value =>
    ⟨visit.schema.bind (·.child? step), step.member?, value⟩

def at? (visit : RedactionVisit φ) : List JsonStep → Option (RedactionVisit φ)
  | [] => some visit
  | step :: rest => (visit.child? step).bind fun child => child.at? rest

def redact : Except Rejection (PythonValue φ) :=
  visit.value.redact text visit.schema visit.fieldName

def classification : Except Rejection DataClassification :=
  visit.value.redactionClassification text visit.schema visit.fieldName

/-- The label that a position has of itself. -/
def own : Except Rejection DataClassification := do
  let labelled ← ownClassification text visit.schema visit.fieldName
  match visit.value with
  | .secret _ => return .secret
  | _ => return labelled

/-- The position raises the label of a value to a masked one. -/
def Raises : Prop := ∃ label, visit.own text = .ok label ∧
    DataClassification.personal.rank ≤ label.rank

/-- The schema of the position is flagged as sensitive and yet labelled lower. -/
def FlaggedBelowLabel : Prop :=
  ∃ schema label, visit.schema = some schema ∧ schema.flagged = true ∧
    schemaClassification (some schema) = .ok (some label) ∧
      label.rank < DataClassification.personal.rank

end RedactionVisit

section

variable {text : TextSupport} {schema : Option JsonSchema} {fieldName : Option String}
variable {label : DataClassification} {members : List (String × RawValue φ)}
  {items : List (RawValue φ)}

theorem le_higher_left (left : DataClassification) (right : Option DataClassification) :
    left.rank ≤ (higherClassification left right).rank := by
  cases right with
  | none => exact Nat.le_refl _
  | some right =>
      rw [higherClassification]
      split
      · rename_i higher
        exact Nat.le_of_lt higher
      · exact Nat.le_refl _

theorem le_higher_right (left right : DataClassification) :
    right.rank ≤ (higherClassification left (some right)).rank := by
  rw [higherClassification]
  split
  · exact Nat.le_refl _
  · rename_i lower
    exact Nat.le_of_not_lt lower

theorem le_higher (high : label.rank ≤ (higherClassification left right).rank) :
    label.rank ≤ left.rank ∨ ∃ other ∈ right, label.rank ≤ other.rank := by
  cases right with
  | none => exact .inl high
  | some right =>
      rw [higherClassification] at high
      split at high
      · exact .inr ⟨right, rfl, high⟩
      · exact .inl high

theorem containsFragment_mono {fragments others : List String} (inside : fragments ⊆ others)
    (contained : containsFragment fragments normalized = true) :
      containsFragment others normalized = true := by
  obtain ⟨fragment, listed, found⟩ := List.any_eq_true.mp contained
  exact List.any_eq_true.mpr ⟨fragment, inside listed, found⟩

theorem secretKeyNames_sensitive :
    ∀ name ∈ secretKeyNames, containsFragment sensitiveKeyFragments name.toList = true := by
  decide

/-- A name has a masked label exactly where it is a sensitive one. -/
theorem keyClassification_sensitive : fieldName.any (isSensitiveKey text) = true ↔
    ∃ label ∈ keyClassification text fieldName, DataClassification.personal.rank ≤ label.rank := by
  cases fieldName with
  | none => simp [keyClassification]
  | some name =>
      have same : isSensitiveKey text name = containsFragment sensitiveKeyFragments
        (normalizedKey text name) := rfl
      rw [Option.any_some, same]
      simp only [keyClassification]
      constructor
      · intro sensitive
        split
        · exact ⟨_, rfl, by decide⟩
        split
        · exact ⟨_, rfl, by decide⟩
        split
        · exact ⟨_, rfl, by decide⟩
        rw [same, if_pos sensitive]
        exact ⟨_, rfl, by decide⟩
      · intro labelled
        obtain ⟨label, found, _⟩ := labelled
        split at found
        · rename_i named
          obtain ⟨known, listed, spelled⟩ := List.any_eq_true.mp named
          rw [← of_decide_eq_true spelled]
          exact secretKeyNames_sensitive known listed
        split at found
        · rename_i contained
          exact containsFragment_mono (by decide) contained
        split at found
        · rename_i contained
          exact containsFragment_mono (by decide) contained
        split at found
        · rename_i sensitive
          exact sensitive
        · cases found

theorem schemaRequiresRedaction_unlabelled {known : JsonSchema}
    (absent : known.get? "x-data-classification" = none ∨
      known.get? "x-data-classification" = some (.scalar .null)) :
    schemaRequiresRedaction (some known) = .ok known.flagged := by
  simp only [schemaRequiresRedaction]
  split
  · rename_i flagged
    rw [flagged]
  · rename_i plain
    rw [Bool.not_eq_true] at plain
    rcases absent with absent | absent <;> rw [absent, plain]

/-- A label of its own masks a position, and so does the flag. -/
theorem schemaRequiresRedaction_of_classified
    (classified : schemaClassification schema = .ok labelled) :
    ∃ required, schemaRequiresRedaction schema = .ok required ∧
      ((∃ label ∈ labelled, DataClassification.personal.rank ≤ label.rank) → required = true) ∧
      (required = true → (∃ label ∈ labelled, DataClassification.personal.rank ≤ label.rank) ∨
        ∃ known label, schema = some known ∧ known.flagged = true ∧ labelled = some label ∧
          label.rank < DataClassification.personal.rank) := by
  cases schema with
  | none =>
      cases classified
      exact ⟨false, rfl, by simp, by simp⟩
  | some known =>
      have unlabelled (absent : known.get? "x-data-classification" = none ∨
            known.get? "x-data-classification" = some (.scalar .null))
          (same : labelled = if known.flagged then some .sensitive else none) :
          ∃ required, schemaRequiresRedaction (some known) = .ok required ∧
            ((∃ label ∈ labelled, DataClassification.personal.rank ≤ label.rank) ↔
                required = true) := by
        refine ⟨known.flagged, schemaRequiresRedaction_unlabelled absent, ?_⟩
        rw [same]
        cases known.flagged <;> simp [DataClassification.rank]
      simp only [schemaClassification] at classified
      split at classified
      · rename_i absent
        obtain ⟨required, decided, exact⟩ :=
          unlabelled (.inl absent) (Except.ok.inj classified).symm
        exact ⟨required, decided, exact.mp, fun needed => .inl (exact.mpr needed)⟩
      · rename_i absent
        obtain ⟨required, decided, exact⟩ :=
          unlabelled (.inr absent) (Except.ok.inj classified).symm
        exact ⟨required, decided, exact.mp, fun needed => .inl (exact.mpr needed)⟩
      · rename_i value given
        simp only [bind_ok, requireSome_ok, pure_ok] at classified
        obtain ⟨label, found, rfl⟩ := classified
        rw [DataClassification.ofValue?] at found
        have spelled : label.value = value := by simpa using List.find?_some found
        have listed : value ∈ DataClassification.redacted ↔
            DataClassification.personal.rank ≤ label.rank := by
          rw [← spelled]
          cases label <;> decide
        simp only [schemaRequiresRedaction, given]
        by_cases flagged : known.flagged = true
        · refine ⟨true, by rw [if_pos flagged], fun _ => rfl, fun _ => ?_⟩
          rcases Nat.lt_or_ge label.rank DataClassification.personal.rank with low | high
          · exact .inr ⟨known, label, rfl, flagged, rfl, low⟩
          · exact .inl ⟨label, rfl, high⟩
        · refine ⟨decide (value ∈ DataClassification.redacted), by rw [if_neg flagged], ?_, ?_⟩
          · intro labelled
            obtain ⟨other, same, high⟩ := labelled
            obtain rfl := Option.some.inj same
            exact decide_eq_true (listed.mpr high)
          · intro required
            exact .inl ⟨label, rfl, listed.mp (of_decide_eq_true required)⟩
      · cases classified

theorem ownMask_of_own (labelled : ownClassification text schema fieldName = .ok label) :
    ∃ masked, ownMask text schema fieldName = .ok masked ∧
      (DataClassification.personal.rank ≤ label.rank → masked = true) ∧
      (masked = true → DataClassification.personal.rank ≤ label.rank ∨
        ∃ known lower, schema = some known ∧ known.flagged = true ∧
          schemaClassification (some known) = .ok (some lower) ∧
            lower.rank < DataClassification.personal.rank) := by
  simp only [ownClassification, bind_ok, pure_ok] at labelled
  obtain ⟨given, classified, rfl⟩ := labelled
  obtain ⟨required, decided, raised, lowered⟩ := schemaRequiresRedaction_of_classified classified
  refine ⟨required || fieldName.any (isSensitiveKey text), ?_, fun high => ?_, fun masked => ?_⟩
  · simp only [ownMask, bind_ok, pure_ok]
    exact ⟨required, decided, rfl⟩
  · rw [Bool.or_eq_true]
    rcases le_higher high with schemaHigh | ⟨other, named, keyHigh⟩
    · rcases le_higher schemaHigh with base | ⟨other, same, labelHigh⟩
      · exact absurd base (by decide)
      · exact .inl (raised ⟨other, same, labelHigh⟩)
    · exact .inr (keyClassification_sensitive.mpr ⟨other, named, keyHigh⟩)
  · rw [Bool.or_eq_true] at masked
    rcases masked with required | named
    · rcases lowered required with ⟨other, same, high⟩ | ⟨known, lower, rfl, flagged, rfl, low⟩
      · left
        rw [Option.mem_def.mp same]
        exact Nat.le_trans (Nat.le_trans high (le_higher_right _ other)) (le_higher_left _ _)
      · exact .inr ⟨known, lower, rfl, flagged, classified, low⟩
    · obtain ⟨other, same, high⟩ := keyClassification_sensitive.mp named
      left
      rw [Option.mem_def.mp same]
      exact Nat.le_trans high (le_higher_right _ other)

theorem child?_putMember :
    (PythonValue.mapping (putMember name value others)).child? (.member other) =
      ((PythonValue.mapping others).child? (.member other)).or
        (if name = other then some value else none) := by
  simp only [PythonValue.child?, PythonValue.item?, putMember]
  cases found : others.find? fun entry => entry.1 = some name with
  | none =>
      by_cases same : name = other
      · subst same
        simp [found]
      · simp [same]
  | some entry =>
      obtain ⟨key, later⟩ := entry
      by_cases same : name = other
      · subst same
        simp [found]
      · have kept : (others.filter fun entry => entry.1 ≠ some name).find?
          (fun entry => entry.1 = some other) =
            others.find? fun entry => entry.1 = some other := by
          rw [List.find?_filter]
          congr 1
          funext entry
          by_cases named : entry.1 = some other
          · simp [named, Ne.symm same]
          · simp [named]
        rw [List.find?_cons_of_neg (by simpa using same), kept, if_neg same, Option.or_none]

namespace RawValue

theorem mem_of_lastMember (found : lastMember members name = some item) :
    (name, item) ∈ members := by
  induction members with
  | nil => cases found
  | cons entry rest ih =>
      obtain ⟨key, first⟩ := entry
      rw [lastMember] at found
      cases later : lastMember rest name with
      | some other =>
          rw [later, Option.some_or] at found
          exact List.mem_cons_of_mem _ (ih (later.trans found))
      | none =>
          rw [later, Option.none_or] at found
          split at found
          · rename_i same
            rw [same, Option.some.inj found]
            exact List.mem_cons_self
          · cases found

theorem child?_redactMembers
    (masked : redactMembers text schema members = .ok redacted) (name : String) :
    match lastMember members name with
    | none => (PythonValue.mapping redacted).child? (.member name) = none
    | some item =>
      ∃ output, redact text (schema.bind (·.child? (.member name))) (some name) item = .ok output ∧
        (PythonValue.mapping redacted).child? (.member name) = some output := by
  induction members generalizing redacted with
  | nil =>
      cases masked
      rfl
  | cons entry rest ih =>
      obtain ⟨key, first⟩ := entry
      simp only [redactMembers, bind_ok, pure_ok] at masked
      obtain ⟨head, one, others, tail, rfl⟩ := masked
      have below := ih tail
      rw [lastMember, child?_putMember]
      cases later : lastMember rest name with
      | some item =>
          rw [later] at below
          obtain ⟨output, inner, found⟩ := below
          exact ⟨output, inner, by rw [found, Option.some_or]⟩
      | none =>
          rw [later] at below
          simp only at below
          rw [below, Option.none_or, Option.none_or]
          by_cases same : key = name
          · subst same
            rw [if_pos rfl, if_pos rfl]
            exact ⟨head, one, rfl⟩
          · rw [if_neg same, if_neg same]

theorem getElem?_redactItems {start : Nat}
    (masked : redactItems text schema start items = .ok redacted) (index : Nat) :
    match items[index]? with
    | none => redacted[index]? = none
    | some item =>
      ∃ output, redact text (schema.bind (·.child? (.index (start + index)))) none item =
        .ok output ∧
        redacted[index]? = some output := by
  induction items generalizing redacted start index with
  | nil =>
      cases masked
      rfl
  | cons first rest ih =>
      simp only [redactItems, bind_ok, pure_ok] at masked
      obtain ⟨head, one, others, tail, rfl⟩ := masked
      cases index with
      | zero => exact ⟨head, one, rfl⟩
      | succ index =>
          rw [List.getElem?_cons_succ, List.getElem?_cons_succ, ← Nat.add_assoc, Nat.add_right_comm]
          exact ih tail index

theorem membersClassification_le
    (classified : membersClassification text schema known members = .ok label) :
    known.rank ≤ label.rank ∧ ∀ name item, (name, item) ∈ members →
      ∃ child, redactionClassification text (schema.bind (·.child? (.member name)))
        (some name) item = .ok child ∧
        child.rank ≤ label.rank := by
  induction members generalizing known with
  | nil =>
      cases classified
      exact ⟨Nat.le_refl _, fun name item absent => absurd absent List.not_mem_nil⟩
  | cons entry rest ih =>
      obtain ⟨key, first⟩ := entry
      simp only [membersClassification, bind_ok] at classified
      obtain ⟨child, one, others⟩ := classified
      obtain ⟨above, each⟩ := ih others
      refine ⟨Nat.le_trans (le_higher_left known (some child)) above, fun name item listed => ?_⟩
      rcases List.mem_cons.mp listed with same | later
      · cases same
        exact ⟨child, one, Nat.le_trans (le_higher_right known child) above⟩
      · exact each name item later

theorem itemsClassification_le {start : Nat}
    (classified : itemsClassification text schema known start items = .ok label) :
    known.rank ≤ label.rank ∧ ∀ index item, items[index]? = some item →
      ∃ child, redactionClassification text (schema.bind (·.child? (.index (start + index)))) none
        item = .ok child ∧
        child.rank ≤ label.rank := by
  induction items generalizing known start with
  | nil =>
      cases classified
      exact ⟨Nat.le_refl _, fun index item absent => by simp at absent⟩
  | cons first rest ih =>
      simp only [itemsClassification, bind_ok] at classified
      obtain ⟨child, one, others⟩ := classified
      obtain ⟨above, each⟩ := ih others
      refine ⟨Nat.le_trans (le_higher_left known (some child)) above, fun index item listed => ?_⟩
      cases index with
      | zero =>
          cases listed
          exact ⟨child, one, Nat.le_trans (le_higher_right known child) above⟩
      | succ index =>
          rw [← Nat.add_assoc, Nat.add_right_comm]
          exact each index item listed

end RawValue

namespace RawValue

theorem redact_masked {value : RawValue φ} (decided : ownMask text schema fieldName = .ok true) :
    value.redact text schema fieldName = .ok redactedStr := by
  rw [redact.eq_def, decided]
  rfl

theorem redact_secret {secret : SecretValue} {masked : Bool}
    (decided : ownMask text schema fieldName = .ok masked) :
    (RawValue.secret secret : RawValue φ).redact text schema fieldName = .ok redactedStr := by
  rw [redact.eq_def, decided]
  cases masked <;> rfl

theorem redact_mapping (decided : ownMask text schema fieldName = .ok false) :
    (RawValue.mapping members).redact text schema fieldName = .ok output ↔
      ∃ redacted, redactMembers text schema members = .ok redacted ∧
        output = .mapping redacted := by
  rw [redact.eq_def, decided]
  simp only [bind_ok, pure_ok, Except.ok.injEq, exists_eq_left', Bool.false_eq_true, if_false]
  simp only [eq_comm]

theorem redact_sequence (decided : ownMask text schema fieldName = .ok false) :
    (RawValue.sequence items).redact text schema fieldName = .ok output ↔
      ∃ redacted, redactItems text schema 0 items = .ok redacted ∧ output = .sequence redacted := by
  rw [redact.eq_def, decided]
  simp only [bind_ok, pure_ok, Except.ok.injEq, exists_eq_left', Bool.false_eq_true, if_false]
  simp only [eq_comm]

mutual

theorem redact_of_classified : ∀ {value : RawValue φ} {schema : Option JsonSchema}
    {fieldName : Option String}
    {label : DataClassification}, value.redactionClassification text schema fieldName = .ok label →
    ∃ output, value.redact text schema fieldName = .ok output
  | value, schema, fieldName, label, classified => by
      rw [redactionClassification.eq_def] at classified
      simp only [bind_ok] at classified
      obtain ⟨own, labelled, rest⟩ := classified
      obtain ⟨masked, decided, _⟩ := ownMask_of_own labelled
      cases masked with
      | true => exact ⟨_, redact_masked decided⟩
      | false =>
          cases value with
          | scalar plain => exact ⟨_, by rw [redact.eq_def, decided]; rfl⟩
          | secret secret => exact ⟨_, redact_secret decided⟩
          | other typeName => exact ⟨_, by rw [redact.eq_def, decided]; rfl⟩
          | mapping members =>
              obtain ⟨redacted, inner⟩ := redactMembers_of_classified rest
              exact ⟨.mapping redacted, (redact_mapping decided).mpr ⟨redacted, inner, rfl⟩⟩
          | sequence items =>
              obtain ⟨redacted, inner⟩ := redactItems_of_classified rest
              exact ⟨.sequence redacted, (redact_sequence decided).mpr ⟨redacted, inner, rfl⟩⟩

theorem redactMembers_of_classified : ∀ {members : List (String × RawValue φ)}
    {schema : Option JsonSchema} {known label : DataClassification},
      membersClassification text schema known members = .ok label →
    ∃ redacted, redactMembers text schema members = .ok redacted
  | [], _, _, _, _ => ⟨[], rfl⟩
  | (name, item) :: rest, schema, known, label, classified => by
      simp only [membersClassification, bind_ok] at classified
      obtain ⟨child, one, others⟩ := classified
      obtain ⟨head, first⟩ := redact_of_classified one
      obtain ⟨tail, later⟩ := redactMembers_of_classified others
      exact ⟨putMember name head tail,
        by simp [redactMembers, first, later, bind, Except.bind, pure, Except.pure]⟩

theorem redactItems_of_classified : ∀ {items : List (RawValue φ)}
    {schema : Option JsonSchema} {start : Nat} {known label : DataClassification},
      itemsClassification text schema known start items = .ok label →
    ∃ redacted, redactItems text schema start items = .ok redacted
  | [], _, _, _, _, _ => ⟨[], rfl⟩
  | item :: rest, schema, start, known, label, classified => by
      simp only [itemsClassification, bind_ok] at classified
      obtain ⟨child, one, others⟩ := classified
      obtain ⟨head, first⟩ := redact_of_classified one
      obtain ⟨tail, later⟩ := redactItems_of_classified others
      exact ⟨head :: tail, by simp [redactItems, first, later, bind, Except.bind,
        pure, Except.pure]⟩

end

end RawValue

namespace RedactionVisit

variable {visit inner : RedactionVisit φ} {output : PythonValue φ} {step : JsonStep}
  {position : List JsonStep}

theorem own_le (classified : visit.classification text = .ok label) :
    ∃ own, visit.own text = .ok own ∧ own.rank ≤ label.rank := by
  rw [classification, RawValue.redactionClassification.eq_def] at classified
  simp only [bind_ok] at classified
  obtain ⟨labelled, given, rest⟩ := classified
  simp only [own, given, bind, Except.bind]
  cases kind : visit.value with
  | secret secret =>
      rw [kind] at rest
      cases rest
      exact ⟨.secret, rfl, Nat.le_refl _⟩
  | scalar plain =>
      rw [kind] at rest
      cases rest
      exact ⟨label, rfl, Nat.le_refl _⟩
  | other typeName =>
      rw [kind] at rest
      cases rest
      exact ⟨label, rfl, Nat.le_refl _⟩
  | mapping members =>
      rw [kind] at rest
      exact ⟨labelled, rfl, (RawValue.membersClassification_le rest).1⟩
  | sequence items =>
      rw [kind] at rest
      exact ⟨labelled, rfl, (RawValue.itemsClassification_le rest).1⟩

theorem child_le (classified : visit.classification text = .ok label)
    (below : visit.child? step = some inner) :
    ∃ child, inner.classification text = .ok child ∧ child.rank ≤ label.rank := by
  rw [classification, RawValue.redactionClassification.eq_def] at classified
  simp only [bind_ok] at classified
  obtain ⟨labelled, given, rest⟩ := classified
  obtain ⟨value, found, rfl⟩ := Option.map_eq_some_iff.mp below
  cases step with
  | member name =>
      cases kind : visit.value with
      | mapping members =>
          rw [kind] at rest found
          exact (RawValue.membersClassification_le rest).2 name value
            (RawValue.mem_of_lastMember found)
      | _ =>
          rw [kind] at found
          cases found
  | index index =>
      cases kind : visit.value with
      | sequence items =>
          rw [kind] at rest found
          have child := (RawValue.itemsClassification_le rest).2 index value found
          rw [Nat.zero_add] at child
          exact child
      | _ =>
          rw [kind] at found
          cases found

theorem at_le (classified : visit.classification text = .ok label)
    (located : visit.at? position = some inner) :
    ∃ child, inner.classification text = .ok child ∧ child.rank ≤ label.rank := by
  induction position generalizing visit label with
  | nil =>
      obtain rfl := Option.some.inj located
      exact ⟨label, classified, Nat.le_refl _⟩
  | cons step rest ih =>
      obtain ⟨middle, below, later⟩ := Option.bind_eq_some_iff.mp located
      obtain ⟨between, labelled, low⟩ := child_le classified below
      obtain ⟨child, found, lower⟩ := ih labelled later
      exact ⟨child, found, Nat.le_trans lower low⟩

/-- The position is masked whatever lies below it. -/
def Masks (text : TextSupport) (visit : RedactionVisit φ) : Prop :=
  ownMask text visit.schema visit.fieldName = .ok true ∨ ∃ secret, visit.value = .secret secret

theorem redact_of_masks (redacted : visit.redact text = .ok output) (masks : visit.Masks text) :
    output = redactedStr := by
  rcases masks with decided | ⟨secret, kind⟩
  · exact Except.ok.inj (redacted.symm.trans (RawValue.redact_masked decided))
  · rw [redact, kind] at redacted
    cases decided : ownMask text visit.schema visit.fieldName with
    | error reason =>
        rw [RawValue.redact.eq_def, decided] at redacted
        cases redacted
    | ok masked => exact Except.ok.inj (redacted.symm.trans (RawValue.redact_secret decided))

theorem masks_of_own {own : DataClassification} (labelled : visit.own text = .ok own) :
    (DataClassification.personal.rank ≤ own.rank → visit.Masks text) ∧
      (visit.Masks text → DataClassification.personal.rank ≤ own.rank ∨ visit.FlaggedBelowLabel) ∧
      (¬visit.Masks text → ownMask text visit.schema visit.fieldName = .ok false) := by
  simp only [RedactionVisit.own, bind_ok] at labelled
  obtain ⟨given, classified, rest⟩ := labelled
  obtain ⟨masked, decided, raised, lowered⟩ := ownMask_of_own classified
  refine ⟨fun high => ?_, fun masks => ?_, fun plain => ?_⟩
  · cases kind : visit.value with
    | secret secret => exact .inr ⟨secret, kind⟩
    | _ =>
        rw [kind] at rest
        cases rest
        left
        rw [decided, raised high]
  · cases kind : visit.value with
    | secret secret =>
        rw [kind] at rest
        cases rest
        exact .inl (by decide)
    | _ =>
        rw [kind] at rest
        cases rest
        rcases masks with forced | ⟨secret, same⟩
        · exact lowered (Except.ok.inj (decided.symm.trans forced))
        · cases kind.symm.trans same
  · cases masked with
    | true => exact absurd (.inl decided) plain
    | false => exact decided

/-- Where a position is open, the redaction follows the value. -/
theorem child_redact (redacted : visit.redact text = .ok output) (plain : ¬visit.Masks text)
    (decided : ownMask text visit.schema visit.fieldName = .ok false) (step : JsonStep) :
    match visit.child? step with
    | none => output.child? step = none
    | some inner => ∃ below, inner.redact text = .ok below ∧ output.child? step = some below := by
  rw [redact] at redacted
  rw [child?]
  cases kind : visit.value with
  | secret secret => exact absurd (.inr ⟨secret, kind⟩) plain
  | scalar found =>
      rw [kind, RawValue.redact.eq_def, decided] at redacted
      cases redacted
      cases step <;> cases found <;> rfl
  | other typeName =>
      rw [kind, RawValue.redact.eq_def, decided] at redacted
      cases redacted
      cases step <;> rfl
  | mapping members =>
      rw [kind, RawValue.redact_mapping decided] at redacted
      obtain ⟨masked, inner, rfl⟩ := redacted
      cases step with
      | index index => rfl
      | member name =>
          have followed := RawValue.child?_redactMembers inner name
          simp only [RawValue.child?]
          cases found : RawValue.lastMember members name with
          | none =>
              rw [found] at followed
              exact followed
          | some item =>
              rw [found] at followed
              exact followed
  | sequence items =>
      rw [kind, RawValue.redact_sequence decided] at redacted
      obtain ⟨masked, inner, rfl⟩ := redacted
      cases step with
      | member name => rfl
      | index index =>
          have followed := RawValue.getElem?_redactItems inner index
          simp only [RawValue.child?]
          cases found : items[index]? with
          | none =>
              rw [found] at followed
              exact followed
          | some item =>
              rw [found, Nat.zero_add] at followed
              exact followed

theorem redact_marker (redacted : visit.redact text = .ok redactedStr) (plain : ¬visit.Masks text)
    (decided : ownMask text visit.schema visit.fieldName = .ok false) :
    visit.value = .scalar (.str "[REDACTED]") := by
  rw [redact] at redacted
  cases kind : visit.value with
  | secret secret => exact absurd (.inr ⟨secret, kind⟩) plain
  | scalar found =>
      rw [kind, RawValue.redact.eq_def, decided] at redacted
      have same : found.toValue = .str "[REDACTED]" := Except.ok.inj redacted
      cases found with
      | str written => rw [PythonValue.str.inj same]
      | _ => cases same
  | other typeName =>
      rw [kind, RawValue.redact.eq_def, decided] at redacted
      have same : "<" ++ typeName ++ ">" = "[REDACTED]" :=
        PythonValue.str.inj (Except.ok.inj redacted)
      have spelled := congrArg String.toList same
      simp at spelled
  | mapping members =>
      rw [kind, RawValue.redact_mapping decided] at redacted
      obtain ⟨_, _, same⟩ := redacted
      cases same
  | sequence items =>
      rw [kind, RawValue.redact_sequence decided] at redacted
      obtain ⟨_, _, same⟩ := redacted
      cases same

theorem masked_of_raises (classified : visit.classification text = .ok label)
    (redacted : visit.redact text = .ok output)
    (located : visit.at? position = some inner) (raises : inner.Raises text) :
      output.MaskedAt position := by
  induction position generalizing visit label output with
  | nil =>
      obtain rfl := Option.some.inj located
      obtain ⟨own, labelled, high⟩ := raises
      rw [redact_of_masks redacted ((masks_of_own labelled).1 high)]
      exact ⟨[], [], rfl, rfl⟩
  | cons step rest ih =>
      obtain ⟨middle, below, later⟩ := Option.bind_eq_some_iff.mp located
      obtain ⟨own, labelled, _⟩ := own_le classified
      by_cases masks : visit.Masks text
      · rw [redact_of_masks redacted masks]
        exact ⟨[], step :: rest, rfl, rfl⟩
      · obtain ⟨between, known, _⟩ := child_le classified below
        have followed := child_redact redacted masks ((masks_of_own labelled).2.2 masks) step
        rw [below] at followed
        obtain ⟨part, follow, found⟩ := followed
        obtain ⟨front, back, rfl, marker⟩ := ih known follow later
        refine ⟨step :: front, back, rfl, ?_⟩
        rw [PythonValue.at?_cons, found]
        exact marker

/-- A marker that was not there before stands for a masked label, or for the flag beside a lower
one. -/
theorem raised_of_marker (classified : visit.classification text = .ok label)
    (redacted : visit.redact text = .ok output) (marker : output.at? position = some redactedStr) :
    ∃ inner, visit.at? position = some inner ∧ (inner.value = .scalar (.str "[REDACTED]") ∨
      DataClassification.personal.rank ≤ label.rank ∨ inner.FlaggedBelowLabel) := by
  induction position generalizing visit label output with
  | nil =>
      obtain rfl := Option.some.inj marker
      obtain ⟨own, labelled, low⟩ := own_le classified
      obtain ⟨_, lowered, opened⟩ := masks_of_own labelled
      by_cases masks : visit.Masks text
      · rcases lowered masks with high | flagged
        · exact ⟨visit, rfl, .inr (.inl (Nat.le_trans high low))⟩
        · exact ⟨visit, rfl, .inr (.inr flagged)⟩
      · exact ⟨visit, rfl, .inl (redact_marker redacted masks (opened masks))⟩
  | cons step rest ih =>
      obtain ⟨own, labelled, _⟩ := own_le classified
      by_cases masks : visit.Masks text
      · rw [redact_of_masks redacted masks] at marker
        cases step <;> cases marker
      · have followed := child_redact redacted masks ((masks_of_own labelled).2.2 masks) step
        rw [PythonValue.at?_cons] at marker
        cases below : visit.child? step with
        | none =>
            rw [below] at followed
            rw [show output.child? step = none from followed] at marker
            cases marker
        | some middle =>
            rw [below] at followed
            obtain ⟨part, follow, found⟩ := followed
            rw [found] at marker
            obtain ⟨between, known, low⟩ := child_le classified below
            obtain ⟨inner, later, outcome⟩ := ih known follow marker
            refine ⟨inner, by rw [at?, below]; exact later, ?_⟩
            exact outcome.imp_right (Or.imp_left fun high => Nat.le_trans high low)

end RedactionVisit

end

/-- Where a value can be labelled, it can be redacted. A new marker in the redaction comes with a
masked label, unless its own schema is flagged beside a lower label, and every position of a masked
label is masked. -/
theorem masking_agrees_with_classification {φ : Type} (text : TextSupport)
    (visit : RedactionVisit φ) (label : DataClassification)
    (classified : visit.classification text = .ok label) :
    ∃ output, visit.redact text = .ok output ∧
      (∀ position, output.at? position = some redactedStr →
        ∃ inner, visit.at? position = some inner ∧ (inner.value = .scalar (.str "[REDACTED]") ∨
          DataClassification.personal.rank ≤ label.rank ∨ inner.FlaggedBelowLabel)) ∧
      ∀ position inner, visit.at? position = some inner →
        (∃ own, inner.own text = .ok own ∧ own.rank ≤ label.rank) ∧
          (inner.Raises text → output.MaskedAt position) := by
  obtain ⟨output, redacted⟩ := RawValue.redact_of_classified classified
  refine ⟨output, redacted, fun position marker => ?_, fun position inner located =>
    ⟨?_, fun raises => ?_⟩⟩
  · exact RedactionVisit.raised_of_marker classified redacted marker
  · obtain ⟨child, found, low⟩ := RedactionVisit.at_le classified located
    obtain ⟨own, labelled, lower⟩ := RedactionVisit.own_le found
    exact ⟨own, labelled, Nat.le_trans lower low⟩
  · exact RedactionVisit.masked_of_raises classified redacted located raises

namespace MaskedLabels

theorem unchanged_twice (text : String) : id (id text) = id text := rfl

def asciiText : TextSupport where
  nfc := id
  strip := id
  lower := id
  nfc_idempotent := unchanged_twice

/-- Flagged as sensitive and labelled as internal. -/
def flaggedInternal : RedactionVisit Unit where
  schema := some [("x-sensitive", .scalar (.bool true)),
    ("x-data-classification", .scalar (.string "internal"))]
  fieldName := none
  value := .scalar (.str "note")

/-- A sensitive name under a label that is none. -/
def unknownLabel : RedactionVisit Unit where
  schema := some [("x-data-classification", .scalar (.string "unknown"))]
  fieldName := some "password"
  value := .scalar (.str "note")

/-- Both are masked, one with a lower label and one without any. -/
theorem masked_without_label :
    (flaggedInternal.redact asciiText = .ok redactedStr ∧
      flaggedInternal.classification asciiText = .ok .internal ∧
      DataClassification.internal.rank < DataClassification.personal.rank) ∧
    unknownLabel.redact asciiText = .ok redactedStr ∧
      ∀ label, unknownLabel.classification asciiText ≠ .ok label := by
  refine ⟨⟨rfl, rfl, by decide⟩, rfl, fun label labelled => ?_⟩
  cases labelled

def guest : RedactionVisit Unit where
  schema := none
  fieldName := none
  value := .mapping [("email", .scalar (.str "guest@example.invalid"))]

theorem masking_agrees_with_classification_guest :
    ∃ output, guest.redact asciiText = .ok output ∧ output.MaskedAt [.member "email"] := by
  obtain ⟨output, redacted, _, raised⟩ :=
    masking_agrees_with_classification asciiText guest .personal rfl
  exact ⟨output, redacted, (raised [.member "email"] _ rfl).2 ⟨.personal, rfl, by decide⟩⟩

end MaskedLabels

end MarketingAgents
