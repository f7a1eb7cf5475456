import Mathlib
import MarketingAgents.Domain.CanonicalWriting

namespace MarketingAgents.Catalog

/-! # Bounded template schemas

Every template has an input and an output schema. The compiler reports what is
not bounded in them: it descends through `properties` and `items` and looks at
the `type` of every schema that it meets.
-/

variable {φ : Type}

structure CatalogIssue where
  sourcePath : String
  jsonPointer : String
  code : String
  message : String
  relatedId : Option String
deriving DecidableEq

/-- Issues are listed by their fields. -/
def CatalogIssue.Before (left right : CatalogIssue) : Prop :=
  [left.sourcePath, left.jsonPointer, left.code, left.message, left.relatedId.getD ""] ≤
    [right.sourcePath, right.jsonPointer, right.code, right.message, right.relatedId.getD ""]

instance : DecidableRel CatalogIssue.Before := fun _ _ => inferInstanceAs (Decidable (_ ≤ _))

/-- `isinstance(value, int)`, which also holds of a boolean. -/
def isInt : Option (PythonValue φ) → Bool
  | some (.int _) | some (.bool _) => true
  | _ => false

def isStr (name : String) : Option (PythonValue φ) → Bool
  | some (.str value) => value = name
  | _ => false

def isFalse : Option (PythonValue φ) → Bool
  | some (.bool false) => true
  | _ => false

/-- A value that counts as true. -/
def truthy (numbers : NumberSupport φ) : Option (PythonValue φ) → Bool
  | none | some .null | some (.bool false) | some (.int 0) | some (.str "") | some (.mapping [])
    | some (.sequence []) => false
  | some (.float value) => numbers.repr value ∉ ["0.0", "-0.0"]
  | _ => true

section

variable (sourcePath relatedId : String)

def issue (pointer code message : String) : CatalogIssue where
  sourcePath
  jsonPointer := pointer
  code
  message
  relatedId := some relatedId

/-- What one schema misses, whatever lies below it. -/
def ownIssues (schema : PythonValue φ) (pointer : String) : List CatalogIssue :=
  (if isStr "object" (schema.item? "type") && !isFalse (schema.item? "additionalProperties") then
    [issue sourcePath relatedId pointer "schema-unbounded-object"
      "object schemas must set additionalProperties to false"] else []) ++
  (if isStr "array" (schema.item? "type") && !isInt (schema.item? "maxItems") then
    [issue sourcePath relatedId pointer "schema-unbounded-array"
      "array schemas must declare a finite maxItems"] else []) ++
  (if isStr "string" (schema.item? "type") && (schema.item? "const").isNone &&
    (schema.item? "enum").isNone &&
      !isInt (schema.item? "maxLength") then
    [issue sourcePath relatedId pointer "schema-unbounded-string"
      "string schemas must declare maxLength or a finite constant/enum"] else [])

mutual

def boundedSchemaIssues (pointer : String) : PythonValue φ → List CatalogIssue
  | .mapping members =>
      ownIssues sourcePath relatedId (.mapping members) pointer ++
        propertiesIssues pointer members ++
        itemsIssues pointer members
  | _ => []

/-- The issues below the first member of this name. -/
def propertiesIssues (pointer : String) : List (Option String × PythonValue φ) → List CatalogIssue
  | [] => []
  | (key, value) :: rest =>
      if key = some "properties" then namedIssues pointer value else propertiesIssues pointer rest

def namedIssues (pointer : String) : PythonValue φ → List CatalogIssue
  | .mapping children => childIssues pointer children
  | _ => []

def childIssues (pointer : String) : List (Option String × PythonValue φ) → List CatalogIssue
  | [] => []
  | (name, child) :: rest =>
      boundedSchemaIssues (pointer ++ "/properties/" ++ name.getD "None") child ++
        childIssues pointer rest

def itemsIssues (pointer : String) : List (Option String × PythonValue φ) → List CatalogIssue
  | [] => []
  | (key, value) :: rest =>
      if key = some "items" then boundedSchemaIssues (pointer ++ "/items") value
        else itemsIssues pointer rest

end

end

inductive Direction where
  | input
  | output
deriving DecidableEq

def Direction.value : Direction → String
  | input => "input"
  | output => "output"

structure AgentTemplateRecord where
  id : String
  schemaRef : Direction → String

def DIALECT : String := "https://json-schema.org/draft/2020-12/schema"

section

variable (numbers : NumberSupport φ)

def schemaIssues (template : AgentTemplateRecord) (direction : Direction)
    (schema : Option (PythonValue φ)) : List CatalogIssue :=
  let sourcePath := template.schemaRef direction
  match schema with
  | none => [issue sourcePath template.id "" "template-schema-missing"
      ("template is missing its " ++ direction.value ++ " schema")]
  | some schema =>
      (if isStr DIALECT (schema.item? "$schema") &&
          isStr ("urn:marketing-agents:catalog:v1:" ++ template.id ++ ":" ++ direction.value)
            (schema.item? "$id") then []
        else [issue sourcePath template.id "" "template-schema-identity"
          "schema dialect and stable identity must match the template and direction"]) ++
      (if isStr "object" (schema.item? "type") && truthy numbers (schema.item? "required") then []
        else [issue sourcePath template.id "" "template-schema-shape"
          "template schemas must be object-shaped with explicit required fields"]) ++
      boundedSchemaIssues sourcePath template.id "" schema

/-- The schemas come by template. -/
def templateIoSchemaIssues (templates : List AgentTemplateRecord)
    (schemas : Direction → String → Option (PythonValue φ)) : List CatalogIssue :=
  (templates.flatMap fun template => [Direction.input, .output].flatMap fun direction =>
    schemaIssues numbers template direction (schemas direction template.id)).insertionSort
      CatalogIssue.Before

end

mutual

/-- The nodes of a value with the characters of its strings and names. -/
def extent : PythonValue φ → Nat
  | .str value => 1 + value.length
  | .mapping members => 1 + membersExtent members
  | .sequence items => 1 + itemsExtent items
  | _ => 1

def membersExtent : List (Option String × PythonValue φ) → Nat
  | [] => 0
  | (name, item) :: rest => (name.getD "").length + extent item + membersExtent rest

def itemsExtent : List (PythonValue φ) → Nat
  | [] => 0
  | item :: rest => extent item + itemsExtent rest

end

/-- The types of a value. -/
def HasType (name : String) : PythonValue φ → Prop
  | .null => name = "null"
  | .bool _ => name = "boolean"
  | .int _ => name = "integer" ∨ name = "number"
  | .float _ => name = "number" ∨ name = "integer"
  | .str _ => name = "string"
  | .mapping _ => name = "object"
  | .sequence _ => name = "array"
  | .other _ => False

def isNumber : PythonValue φ → Bool
  | .int _ | .float _ => true
  | _ => false

/-- Equality of JSON values: the members of an object come in any order, and numbers are compared by
their value. -/
inductive JsonEqual (numeric : PythonValue φ → PythonValue φ → Prop) :
    PythonValue φ → PythonValue φ → Prop where
  | same (value : PythonValue φ) : JsonEqual numeric value value
  | number {left right : PythonValue φ} (first : isNumber left = true)
      (second : isNumber right = true) (equal : numeric left right) : JsonEqual numeric left right
  | mapping {lefts rights : List (Option String × PythonValue φ)}
      (names : (rights.map Prod.fst).Perm (lefts.map Prod.fst))
      (members : ∀ name left right, (name, left) ∈ lefts → (name, right) ∈ rights →
        JsonEqual numeric left right) :
      JsonEqual numeric (.mapping lefts) (.mapping rights)
  | sequence {lefts rights : List (PythonValue φ)} (size : rights.length = lefts.length)
      (items : ∀ (index : Nat) left right, lefts[index]? = some left → rights[index]? = some right →
        JsonEqual numeric left right) : JsonEqual numeric (.sequence lefts) (.sequence rights)

/-- Validity under Draft 2020-12: what the keywords that bound a value assert, and what all others
do. -/
inductive Valid (named : String → String → Bool)
    (numeric others : PythonValue φ → PythonValue φ → Prop) :
    PythonValue φ → PythonValue φ → Prop where
  | always {value : PythonValue φ} : Valid named numeric others (.bool true) value
  | keywords {schema value : PythonValue φ} (shape : ∃ entries, schema = .mapping entries)
      (typed : ∀ kind, schema.item? "type" = some (.str kind) → HasType kind value)
      (types : ∀ kinds, schema.item? "type" = some (.sequence kinds) → ∃ kind, .str kind ∈ kinds ∧
        HasType kind value)
      (maxLength : ∀ limit text, schema.item? "maxLength" = some (.int limit) → value = .str text →
        (text.length : Int) ≤ limit)
      (const : ∀ constant, schema.item? "const" = some constant → JsonEqual numeric constant value)
      (enum : ∀ options, schema.item? "enum" = some (.sequence options) →
        ∃ option ∈ options, JsonEqual numeric option value)
      (maxItems : ∀ limit items, schema.item? "maxItems" = some (.int limit) →
        value = .sequence items →
        (items.length : Int) ≤ limit)
      (distinct : ∀ members, value = .mapping members →
        (members.map Prod.fst).Nodup ∧ ∀ member ∈ members, member.1.isSome)
      (properties : ∀ members children name item child, value = .mapping members →
        schema.item? "properties" = some (.mapping children) → (some name, item) ∈ members →
          (some name, child) ∈ children → Valid named numeric others child item)
      (patterns : ∀ members children name item pattern child, value = .mapping members →
        schema.item? "patternProperties" = some (.mapping children) → (some name, item) ∈ members →
          (some pattern, child) ∈ children → named pattern name = true →
            Valid named numeric others child item)
      (additional : ∀ members child name item, value = .mapping members →
        schema.item? "additionalProperties" = some child → (some name, item) ∈ members →
          (∀ children, schema.item? "properties" = some (.mapping children) →
            some name ∉ children.map Prod.fst) →
          (∀ children, schema.item? "patternProperties" = some (.mapping children) →
            ∀ pattern, some pattern ∈ children.map Prod.fst → named pattern name = false) →
            Valid named numeric others child item)
      (prefixItems : ∀ items firsts (index : Nat) item child, value = .sequence items →
        schema.item? "prefixItems" = some (.sequence firsts) → items[index]? = some item →
          firsts[index]? = some child → Valid named numeric others child item)
      (items : ∀ items child (index : Nat) item, value = .sequence items →
        schema.item? "items" = some child →
        items[index]? = some item →
          (∀ firsts, schema.item? "prefixItems" = some (.sequence firsts) → firsts.length ≤ index) →
            Valid named numeric others child item)
      (rest : others schema value) : Valid named numeric others schema value

/-- The types that a schema names. -/
def kindsOf : Option (PythonValue φ) → List String
  | some (.str kind) => [kind]
  | some (.sequence kinds) => kinds.filterMap fun
      | .str kind => some kind
      | _ => none
  | _ => []

/-- What a schema has to say of a type beside what is checked: the checks look at a type only where
it stands alone. -/
structure KindDeclared (schema : PythonValue φ) (kind : String) : Prop where
  object : kind = "object" → schema.item? "patternProperties" = none ∧
    (schema.item? "type" ≠ some (.str kind) → schema.item? "additionalProperties" =
      some (.bool false))
  array : kind = "array" → schema.item? "prefixItems" = none ∧ (schema.item? "items").isSome ∧
    (∀ limit, schema.item? "maxItems" ≠ some (.bool limit)) ∧
    (schema.item? "type" ≠ some (.str kind) → isInt (schema.item? "maxItems") = true)
  string : kind = "string" → (∀ limit, schema.item? "maxLength" ≠ some (.bool limit)) ∧
    (∀ options, schema.item? "enum" = some options → ∃ listed, options = .sequence listed) ∧
    (schema.item? "type" ≠ some (.str kind) → (schema.item? "const").isSome ∨
      (schema.item? "enum").isSome ∨
      isInt (schema.item? "maxLength") = true)

/-- The schemas that bound a value are met: each one that properties and items lead to gives a
constant or a list of options, or names its types and bounds each of them by its own keywords. -/
inductive Declared : PythonValue φ → Prop where
  | constant {schema constant : PythonValue φ} (fixed : schema.item? "const" = some constant) :
      Declared schema
  | options {schema : PythonValue φ} {options : List (PythonValue φ)}
      (listed : schema.item? "enum" = some (.sequence options)) : Declared schema
  | typed {schema : PythonValue φ}
      (named : (∃ kind, schema.item? "type" = some (.str kind)) ∨
        ∃ kinds, schema.item? "type" = some (.sequence kinds))
      (kinds : ∀ kind ∈ kindsOf (schema.item? "type"), KindDeclared schema kind)
      (properties : "object" ∈ kindsOf (schema.item? "type") → ∀ children entry,
        schema.item? "properties" = some (.mapping children) → entry ∈ children → Declared entry.2)
      (items : "array" ∈ kindsOf (schema.item? "type") →
        ∀ child, schema.item? "items" = some child → Declared child) :
      Declared schema

section

variable {sourcePath relatedId pointer : String} {schema child : PythonValue φ}
variable {members children : List (Option String × PythonValue φ)}

theorem item?_cons {key : Option String} {value : PythonValue φ} :
    (PythonValue.mapping ((key, value) :: members)).item? name =
      if key = some name then some value else (PythonValue.mapping members).item? name := by
  by_cases same : key = some name
  · simp [PythonValue.item?, same]
  · simp [PythonValue.item?, same]

theorem propertiesIssues_nil
    (unflagged : propertiesIssues sourcePath relatedId pointer members = [])
    (found : (PythonValue.mapping members).item? "properties" = some (.mapping children)) :
    childIssues sourcePath relatedId pointer children = [] := by
  induction members with
  | nil => cases found
  | cons member rest ih =>
      obtain ⟨key, value⟩ := member
      rw [item?_cons] at found
      rw [propertiesIssues] at unflagged
      split at found
      · next here =>
          cases found
          rw [if_pos here, namedIssues] at unflagged
          exact unflagged
      · next later =>
          rw [if_neg later] at unflagged
          exact ih unflagged found

theorem itemsIssues_nil (unflagged : itemsIssues sourcePath relatedId pointer members = [])
    (found : (PythonValue.mapping members).item? "items" = some child) :
    boundedSchemaIssues sourcePath relatedId (pointer ++ "/items") child = [] := by
  induction members with
  | nil => cases found
  | cons member rest ih =>
      obtain ⟨key, value⟩ := member
      rw [item?_cons] at found
      rw [itemsIssues] at unflagged
      split at found
      · next here =>
          cases found
          rwa [if_pos here] at unflagged
      · next later =>
          rw [if_neg later] at unflagged
          exact ih unflagged found

theorem childIssues_nil (unflagged : childIssues sourcePath relatedId pointer children = []) :
    ∀ entry ∈ children, ∃ below, boundedSchemaIssues sourcePath relatedId below entry.2 = [] := by
  induction children with
  | nil => simp
  | cons entry rest ih =>
      obtain ⟨name, child⟩ := entry
      rw [childIssues, List.append_eq_nil_iff] at unflagged
      exact List.forall_mem_cons.mpr ⟨⟨_, unflagged.1⟩, ih unflagged.2⟩

theorem boundedSchemaIssues_nil
    (unflagged : boundedSchemaIssues sourcePath relatedId pointer schema = [])
    (shape : ∃ entries, schema = .mapping entries) :
    ownIssues sourcePath relatedId schema pointer = [] ∧
      (∀ children, schema.item? "properties" = some (.mapping children) →
        ∀ entry ∈ children, ∃ below, boundedSchemaIssues sourcePath relatedId below entry.2 = []) ∧
      ∀ child, schema.item? "items" = some child →
        boundedSchemaIssues sourcePath relatedId (pointer ++ "/items") child = [] := by
  obtain ⟨entries, rfl⟩ := shape
  rw [boundedSchemaIssues, List.append_eq_nil_iff, List.append_eq_nil_iff] at unflagged
  obtain ⟨⟨own, properties⟩, items⟩ := unflagged
  exact ⟨own, fun children found => childIssues_nil (propertiesIssues_nil properties found),
    fun child found => itemsIssues_nil items found⟩

theorem shape_of_item? (found : schema.item? name = some item) :
    ∃ entries, schema = .mapping entries := by
  cases schema with
  | mapping entries => exact ⟨entries, rfl⟩
  | null | bool | int | float | str | sequence | other => cases found

theorem isStr_self {item : Option (PythonValue φ)} (same : item = some (.str name)) :
    isStr name item = true := by
  rw [same]
  exact decide_eq_true rfl

theorem ownIssues_object (own : ownIssues sourcePath relatedId schema pointer = [])
    (typed : schema.item? "type" = some (.str "object")) :
      schema.item? "additionalProperties" = some (.bool false) := by
  simp only [ownIssues, List.append_eq_nil_iff, isStr_self typed, Bool.true_and] at own
  have closed : isFalse (schema.item? "additionalProperties") = true := by
    by_contra open_
    rw [Bool.not_eq_true] at open_
    simp [open_] at own
  unfold isFalse at closed
  split at closed
  · assumption
  · cases closed

theorem isInt_cases (counted : isInt item = true)
    (plain : ∀ limit, item ≠ some (.bool limit)) : ∃ limit, item = some (.int limit) := by
  unfold isInt at counted
  split at counted
  · next limit => exact ⟨limit, rfl⟩
  · next limit => exact absurd rfl (plain limit)
  · cases counted

theorem ownIssues_array (own : ownIssues sourcePath relatedId schema pointer = [])
    (typed : schema.item? "type" = some (.str "array")) :
      isInt (schema.item? "maxItems") = true := by
  simp only [ownIssues, List.append_eq_nil_iff, isStr_self typed, Bool.true_and] at own
  by_contra unlimited
  rw [Bool.not_eq_true] at unlimited
  simp [unlimited] at own

theorem ownIssues_string (own : ownIssues sourcePath relatedId schema pointer = [])
    (typed : schema.item? "type" = some (.str "string")) :
    (schema.item? "const").isSome ∨ (schema.item? "enum").isSome ∨
      isInt (schema.item? "maxLength") = true := by
  simp only [ownIssues, List.append_eq_nil_iff, isStr_self typed, Bool.true_and] at own
  by_contra unlimited
  simp only [not_or, Bool.not_eq_true, Option.isSome_eq_false_iff] at unlimited
  simp [unlimited] at own

end

section

variable {named : String → String → Bool} {numeric others : PythonValue φ → PythonValue φ → Prop}
  {schema value : PythonValue φ}

theorem not_valid_false : ¬ Valid named numeric others (.bool false) value := by
  intro valid
  cases valid with
  | keywords shape =>
      obtain ⟨_, shape⟩ := shape
      cases shape

theorem HasType.kind (typed : HasType name value) : extent value = 1 ∨
    (∃ text, value = .str text ∧ name = "string") ∨
    (∃ members, value = .mapping members ∧ name = "object") ∨
    ∃ items, value = .sequence items ∧ name = "array" := by
  cases value with
  | null | bool | int | float => exact .inl rfl
  | str text => exact .inr (.inl ⟨text, rfl, typed⟩)
  | mapping members => exact .inr (.inr (.inl ⟨members, rfl, typed⟩))
  | sequence items => exact .inr (.inr (.inr ⟨items, rfl, typed⟩))
  | other => exact typed.elim

theorem membersExtent_le {members : List (Option String × PythonValue φ)} {bound : Nat}
    (each : ∀ member ∈ members, (member.1.getD "").length + extent member.2 ≤ bound) :
    membersExtent members ≤ members.length * bound := by
  induction members with
  | nil => simp [membersExtent]
  | cons member rest ih =>
      obtain ⟨name, item⟩ := member
      obtain ⟨head, tail⟩ := List.forall_mem_cons.mp each
      have below := ih tail
      dsimp only at head
      rw [membersExtent, List.length_cons, Nat.succ_mul]
      omega

theorem itemsExtent_le {items : List (PythonValue φ)} {bound : Nat}
    (each : ∀ item ∈ items, extent item ≤ bound) :
    itemsExtent items ≤ items.length * bound := by
  induction items with
  | nil => simp [itemsExtent]
  | cons item rest ih =>
      obtain ⟨head, tail⟩ := List.forall_mem_cons.mp each
      have below := ih tail
      rw [itemsExtent, List.length_cons, Nat.succ_mul]
      omega

theorem extent_number (numeric : isNumber number = true) : extent number = 1 := by
  cases number with
  | int | float => rfl
  | _ => cases numeric

/-- What is related to a value is bounded. -/
def Bounds (related : PythonValue φ → PythonValue φ → Prop) (left : PythonValue φ) : Prop :=
  ∃ bound, ∀ value, related left value → extent value ≤ bound

variable {related : PythonValue φ → PythonValue φ → Prop}

theorem bounds_members {children : List (Option String × PythonValue φ)}
    (each : ∀ entry ∈ children, Bounds related entry.2) :
    ∃ bound, ∀ entry ∈ children, ∀ value, related entry.2 value →
      (entry.1.getD "").length + extent value ≤ bound := by
  induction children with
  | nil => exact ⟨0, by simp⟩
  | cons first rest ih =>
      obtain ⟨head, tail⟩ := List.forall_mem_cons.mp each
      obtain ⟨own, least⟩ := head
      obtain ⟨bound, below⟩ := ih tail
      refine ⟨max ((first.1.getD "").length + own) bound, List.forall_mem_cons.mpr ⟨?_, ?_⟩⟩
      · intro value valid
        exact (Nat.add_le_add_left (least value valid) _).trans (le_max_left _ _)
      · intro entry member value valid
        exact (below entry member value valid).trans (le_max_right _ _)

theorem bounds_items {items : List (PythonValue φ)} (each : ∀ item ∈ items, Bounds related item) :
    ∃ bound, ∀ item ∈ items, ∀ value, related item value → extent value ≤ bound := by
  have named : ∀ entry ∈ items.map (Prod.mk (none : Option String)), Bounds related entry.2 :=
    List.forall_mem_map.mpr each
  obtain ⟨bound, below⟩ := bounds_members named
  refine ⟨bound, fun item member value valid => ?_⟩
  have within := below (none, item) (List.mem_map_of_mem member) value valid
  omega

theorem bounds_leaf {constant : PythonValue φ} (memberless : ∀ members, constant ≠ .mapping members)
    (itemless : ∀ items, constant ≠ .sequence items) : Bounds (JsonEqual numeric) constant := by
  refine ⟨max 1 (extent constant), fun value equal => ?_⟩
  cases equal with
  | same => exact le_max_right _ _
  | number _ second => exact (le_of_eq (extent_number second)).trans (le_max_left _ _)
  | mapping => exact absurd rfl (memberless _)
  | sequence => exact absurd rfl (itemless _)

mutual

/-- A constant bounds what is equal to it. -/
theorem bounds_equal : ∀ constant : PythonValue φ, Bounds (JsonEqual numeric) constant
  | .mapping lefts => by
      obtain ⟨bound, below⟩ := bounds_members (bounds_equalMembers lefts)
      refine ⟨max (extent (.mapping lefts)) (1 + lefts.length * bound), fun value equal => ?_⟩
      cases equal with
      | same => exact le_max_left _ _
      | number first => cases first
      | mapping names members =>
          rename_i rights
          have each : ∀ member ∈ rights, (member.1.getD "").length + extent member.2 ≤ bound := by
            intro member present
            obtain ⟨left, listed, named⟩ :=
              List.mem_map.mp (names.subset (List.mem_map_of_mem present))
            have within := below left listed member.2
              (members left.1 left.2 member.2 listed (named ▸ present))
            rwa [named] at within
          have total := membersExtent_le each
          rw [show rights.length = lefts.length by simpa using names.length_eq] at total
          rw [extent]
          exact (Nat.add_le_add_left total 1).trans (le_max_right _ _)
  | .sequence lefts => by
      obtain ⟨bound, below⟩ := bounds_items (bounds_equalItems lefts)
      refine ⟨max (extent (.sequence lefts)) (1 + lefts.length * bound), fun value equal => ?_⟩
      cases equal with
      | same => exact le_max_left _ _
      | number first => cases first
      | sequence size items =>
          rename_i rights
          have each : ∀ item ∈ rights, extent item ≤ bound := by
            intro item member
            obtain ⟨index, within, rfl⟩ := List.getElem_of_mem member
            have inside : index < lefts.length := size ▸ within
            have listed : lefts[index]? = some lefts[index] := List.getElem?_eq_getElem _
            exact below _ (List.mem_of_getElem? listed) _
              (items index _ _ listed (List.getElem?_eq_getElem within))
          rw [extent, ← size]
          exact (Nat.add_le_add_left (itemsExtent_le each) 1).trans (le_max_right _ _)
  | .null | .bool _ | .int _ | .float _ | .str _ | .other _ => bounds_leaf (by simp) (by simp)

theorem bounds_equalMembers : ∀ members : List (Option String × PythonValue φ),
    ∀ entry ∈ members, Bounds (JsonEqual numeric) entry.2
  | [] => by simp
  | (_, item) :: rest => List.forall_mem_cons.mpr ⟨bounds_equal item, bounds_equalMembers rest⟩

theorem bounds_equalItems : ∀ items : List (PythonValue φ), ∀ item ∈ items,
    Bounds (JsonEqual numeric) item
  | [] => by simp
  | item :: rest => List.forall_mem_cons.mpr ⟨bounds_equal item, bounds_equalItems rest⟩

end

end

section

variable {named : String → String → Bool} {numeric others : PythonValue φ → PythonValue φ → Prop}
  {schema child : PythonValue φ}

theorem Valid.declared (valid : Valid named numeric others schema (.mapping members))
    (closed : schema.item? "additionalProperties" = some (.bool false))
    (unpatterned : schema.item? "patternProperties" = none) :
    ((members.map Prod.fst).Nodup ∧ ∀ member ∈ members, member.1.isSome) ∧
      ∀ name item, (some name, item) ∈ members →
        ∃ children child, schema.item? "properties" = some (.mapping children) ∧
        (some name, child) ∈ children ∧ Valid named numeric others child item := by
  cases valid with
  | always => cases closed
  | keywords shape hasType types maxLength const enum maxItems distinct inside patterns
      additional =>
      refine ⟨distinct members rfl, fun name item member => ?_⟩
      by_contra missing
      refine not_valid_false (additional members (.bool false) name item rfl closed member ?_ ?_)
      · intro children found known
        obtain ⟨entry, listed, same⟩ := List.mem_map.mp known
        obtain ⟨key, child⟩ := entry
        cases same
        exact missing ⟨children, child, found, listed,
          inside members children name item child rfl found member listed⟩
      · intro children found
        rw [unpatterned] at found
        cases found

theorem bounds_mapping (closed : schema.item? "additionalProperties" = some (.bool false))
    (unpatterned : schema.item? "patternProperties" = none)
    (properties : ∀ children entry, schema.item? "properties" = some (.mapping children) →
      entry ∈ children →
      Bounds (Valid named numeric others) entry.2) :
    ∃ bound, ∀ members, Valid named numeric others schema (.mapping members) →
      extent (.mapping members) ≤ bound := by
  by_cases listed : ∃ children, schema.item? "properties" = some (.mapping children)
  · obtain ⟨children, listed⟩ := listed
    obtain ⟨bound, below⟩ := bounds_members fun entry member =>
      properties children entry listed member
    refine ⟨1 + children.length * bound, fun members valid => ?_⟩
    obtain ⟨⟨distinct, strings⟩, declared⟩ := valid.declared closed unpatterned
    have each : ∀ member ∈ members, member.1 ∈ children.map Prod.fst ∧
        (member.1.getD "").length + extent member.2 ≤ bound := by
      intro member present
      obtain ⟨key, item⟩ := member
      obtain ⟨name, rfl⟩ := Option.isSome_iff_exists.mp (strings _ present)
      obtain ⟨others, child, found, inside, valid⟩ := declared name item present
      cases listed.symm.trans found
      exact ⟨List.mem_map.mpr ⟨(some name, child), inside, rfl⟩,
        below (some name, child) inside item valid⟩
    have few : members.length ≤ children.length := by
      have names : (members.map Prod.fst).length ≤ (children.map Prod.fst).length :=
        (List.subperm_of_subset distinct fun key present => by
          obtain ⟨member, inside, rfl⟩ := List.mem_map.mp present
          exact (each member inside).1).length_le
      simpa using names
    have total := membersExtent_le fun member present => (each member present).2
    rw [extent]
    exact Nat.add_le_add_left (total.trans (Nat.mul_le_mul_right bound few)) 1
  · refine ⟨1, fun members valid => ?_⟩
    obtain ⟨⟨_, strings⟩, declared⟩ := valid.declared closed unpatterned
    cases members with
    | nil => simp [extent, membersExtent]
    | cons member rest =>
        obtain ⟨key, item⟩ := member
        obtain ⟨name, rfl⟩ := Option.isSome_iff_exists.mp (strings _ List.mem_cons_self)
        obtain ⟨children, _, found, _⟩ := declared name item List.mem_cons_self
        exact absurd ⟨children, found⟩ listed

theorem bounds_sequence {limit : Int} (limited : schema.item? "maxItems" = some (.int limit))
    (unprefixed : schema.item? "prefixItems" = none) (itemed : schema.item? "items" = some child)
    (bounded : Bounds (Valid named numeric others) child) :
    ∃ bound, ∀ items, Valid named numeric others schema (.sequence items) →
      extent (.sequence items) ≤ bound := by
  obtain ⟨bound, below⟩ := bounded
  refine ⟨1 + limit.toNat * bound, fun members valid => ?_⟩
  cases valid with
  | always => cases limited
  | keywords shape hasType types maxLength const enum maxItems distinct inside patterns
      additional prefixed itemwise =>
      have few : members.length ≤ limit.toNat := by
        have within := maxItems limit members limited rfl
        omega
      have each : ∀ item ∈ members, extent item ≤ bound := by
        intro item member
        obtain ⟨index, found⟩ := List.mem_iff_getElem?.mp member
        refine below item (itemwise members child index item rfl itemed found fun firsts same => ?_)
        rw [unprefixed] at same
        cases same
      rw [extent]
      exact Nat.add_le_add_left ((itemsExtent_le each).trans (Nat.mul_le_mul_right bound few)) 1

theorem bounds_constant (fixed : schema.item? "const" = some constant) :
    Bounds (Valid named numeric others) schema := by
  obtain ⟨bound, below⟩ : Bounds (JsonEqual numeric) constant := bounds_equal constant
  refine ⟨bound, fun value valid => ?_⟩
  cases valid with
  | always => cases fixed
  | keywords shape hasType types maxLength const => exact below value (const constant fixed)

theorem bounds_options (listed : schema.item? "enum" = some (.sequence options)) :
    Bounds (Valid named numeric others) schema := by
  obtain ⟨bound, below⟩ : ∃ bound, ∀ item ∈ options, ∀ value, JsonEqual numeric item value →
    extent value ≤ bound :=
    bounds_items (bounds_equalItems options)
  refine ⟨bound, fun value valid => ?_⟩
  cases valid with
  | always => cases listed
  | keywords shape hasType types maxLength const enum =>
      obtain ⟨option, member, equal⟩ := enum options listed
      exact below option member value equal

theorem bounds_text (limited : (schema.item? "const").isSome ∨
    (∃ options, schema.item? "enum" = some (.sequence options)) ∨
      ∃ limit, schema.item? "maxLength" = some (.int limit)) :
    ∃ bound, ∀ text, Valid named numeric others schema (.str text) → extent
    (.str text : PythonValue φ) ≤ bound := by
  rcases limited with constant | ⟨options, listed⟩ | ⟨limit, listed⟩
  · obtain ⟨constant, fixed⟩ := Option.isSome_iff_exists.mp constant
    obtain ⟨bound, below⟩ : Bounds (Valid named numeric others) schema := bounds_constant fixed
    exact ⟨bound, fun text => below (.str text)⟩
  · obtain ⟨bound, below⟩ : Bounds (Valid named numeric others) schema := bounds_options listed
    exact ⟨bound, fun text => below (.str text)⟩
  · refine ⟨1 + limit.toNat, fun text valid => ?_⟩
    rw [extent]
    cases valid with
    | always => cases listed
    | keywords shape hasType types maxLength =>
        have within := maxLength limit text listed rfl
        omega

theorem Valid.kind (valid : Valid named numeric others schema value)
    (typed : (∃ kind, schema.item? "type" = some (.str kind)) ∨
      ∃ kinds, schema.item? "type" = some (.sequence kinds)) :
    ∃ kind ∈ kindsOf (schema.item? "type"), HasType kind value := by
  cases valid with
  | always => rcases typed with ⟨_, typed⟩ | ⟨_, typed⟩ <;> cases typed
  | keywords shape hasType types =>
      rcases typed with ⟨kind, found⟩ | ⟨kinds, found⟩
      · rw [found]
        exact ⟨kind, List.mem_singleton_self _, hasType kind found⟩
      · obtain ⟨kind, member, known⟩ := types kinds found
        rw [found]
        exact ⟨kind, List.mem_filterMap.mpr ⟨.str kind, member, rfl⟩, known⟩

theorem bound_if {named : Prop} {within : Nat → Prop} (bounded : named → ∃ bound, within bound) :
    ∃ bound, named → within bound := by
  by_cases holds : named
  · obtain ⟨bound, inside⟩ := bounded holds
    exact ⟨bound, fun _ => inside⟩
  · exact ⟨0, fun impossible => absurd impossible holds⟩

theorem bounds_typed (typed : (∃ kind, schema.item? "type" = some (.str kind)) ∨
      ∃ kinds, schema.item? "type" = some (.sequence kinds))
    (text : "string" ∈ kindsOf (schema.item? "type") →
      ∃ bound, ∀ text, Valid named numeric others schema (.str text) → extent
      (.str text : PythonValue φ) ≤ bound)
    (mapping : "object" ∈ kindsOf (schema.item? "type") →
      ∃ bound, ∀ members, Valid named numeric others schema (.mapping members) →
        extent (.mapping members) ≤ bound)
    (sequence : "array" ∈ kindsOf (schema.item? "type") →
      ∃ bound, ∀ items, Valid named numeric others schema (.sequence items) →
        extent (.sequence items) ≤ bound) :
    Bounds (Valid named numeric others) schema := by
  obtain ⟨texts, textual⟩ := bound_if text
  obtain ⟨members, mapped⟩ := bound_if mapping
  obtain ⟨items, listed⟩ := bound_if sequence
  refine ⟨1 + texts + members + items, fun value valid => ?_⟩
  obtain ⟨kind, named, known⟩ := valid.kind typed
  rcases known.kind with single | ⟨text, rfl, rfl⟩ | ⟨entries, rfl, rfl⟩ | ⟨rest, rfl, rfl⟩
  · omega
  · have within := textual named text valid
    omega
  · have within := mapped named entries valid
    omega
  · have within := listed named rest valid
    omega

/-- A declared schema without issues bounds what is valid under it. -/
theorem Declared.bounds {sourcePath relatedId pointer : String} (declared : Declared schema)
    (unflagged : boundedSchemaIssues sourcePath relatedId pointer schema = []) :
    Bounds (Valid named numeric others) schema := by
  induction declared generalizing pointer with
  | constant fixed => exact bounds_constant fixed
  | options listed => exact bounds_options listed
  | @typed schema typed kinds properties items ihProperties ihItems =>
      have shape : ∃ entries, schema = .mapping entries := by
        rcases typed with ⟨_, typed⟩ | ⟨_, typed⟩ <;> exact shape_of_item? typed
      obtain ⟨own, below, inside⟩ := boundedSchemaIssues_nil unflagged shape
      refine bounds_typed typed ?_ ?_ ?_
      · intro named
        obtain ⟨counted, options, alone⟩ := (kinds "string" named).string rfl
        apply bounds_text
        have limited : (schema.item? "const").isSome ∨ (schema.item? "enum").isSome ∨
            isInt (schema.item? "maxLength") = true := by
          by_cases single : schema.item? "type" = some (.str "string")
          · exact ownIssues_string own single
          · exact alone single
        rcases limited with constant | listed | limit
        · exact .inl constant
        · obtain ⟨found, listed⟩ := Option.isSome_iff_exists.mp listed
          obtain ⟨texts, rfl⟩ := options found listed
          exact .inr (.inl ⟨texts, listed⟩)
        · exact .inr (.inr (isInt_cases limit counted))
      · intro named
        obtain ⟨unpatterned, alone⟩ := (kinds "object" named).object rfl
        have closed : schema.item? "additionalProperties" = some (.bool false) := by
          by_cases single : schema.item? "type" = some (.str "object")
          · exact ownIssues_object own single
          · exact alone single
        refine bounds_mapping closed unpatterned fun children entry listed member => ?_
        obtain ⟨deeper, unflagged⟩ := below children listed entry member
        exact ihProperties named children entry listed member unflagged
      · intro named
        obtain ⟨unprefixed, itemed, counted, alone⟩ := (kinds "array" named).array rfl
        obtain ⟨child, itemed⟩ := Option.isSome_iff_exists.mp itemed
        have limited : isInt (schema.item? "maxItems") = true := by
          by_cases single : schema.item? "type" = some (.str "array")
          · exact ownIssues_array own single
          · exact alone single
        obtain ⟨limit, limited⟩ := isInt_cases limited counted
        exact bounds_sequence limited unprefixed itemed
          (ihItems named child itemed (inside child itemed))

end

/-- When the checks report nothing, every declared template schema bounds the values that are valid
under it. -/
theorem template_schemas_bounded {numbers : NumberSupport φ} {templates : List AgentTemplateRecord}
    {schemas : Direction → String → Option (PythonValue φ)} (named : String → String → Bool)
    (numeric others : PythonValue φ → PythonValue φ → Prop)
    (unflagged : templateIoSchemaIssues numbers templates schemas = [])
    {template : AgentTemplateRecord} (listed : template ∈ templates) (direction : Direction) :
    ∃ schema, schemas direction template.id = some schema ∧ (Declared schema →
      ∃ bound, ∀ value, Valid named numeric others schema value → extent value ≤ bound) := by
  have none_listed : ∀ template ∈ templates, ∀ direction : Direction,
      schemaIssues numbers template direction (schemas direction template.id) = [] := by
    intro template member direction
    have sorted := List.perm_insertionSort CatalogIssue.Before (templates.flatMap fun template =>
      [Direction.input, .output].flatMap fun direction =>
        schemaIssues numbers template direction (schemas direction template.id))
    rw [show List.insertionSort CatalogIssue.Before _ = [] from unflagged] at sorted
    have each := List.flatMap_eq_nil_iff.mp sorted.nil_eq.symm template member
    refine List.flatMap_eq_nil_iff.mp each direction ?_
    cases direction <;> simp
  have own := none_listed template listed direction
  cases found : schemas direction template.id with
  | none => simp [schemaIssues, found] at own
  | some schema =>
      rw [found] at own
      simp only [schemaIssues, List.append_eq_nil_iff] at own
      exact ⟨schema, rfl, fun declared => declared.bounds own.2⟩

namespace OneProperty

def template : AgentTemplateRecord where
  id := "template.writer"
  schemaRef direction := "schemas/writer." ++ direction.value ++ ".json"

def schema (property : PythonValue Bool) (direction : Direction) : PythonValue Bool :=
  .record [("$schema", .str DIALECT),
    ("$id", .str ("urn:marketing-agents:catalog:v1:template.writer:" ++ direction.value)),
    ("type", .str "object"), ("required", .strings ["request"]),
      ("additionalProperties", .bool false),
    ("properties", .record [("request", property)])]

/-- A constant without a type and a text that may be null. -/
def provenance : PythonValue Bool :=
  .record [("type", .str "object"), ("additionalProperties", .bool false),
    ("properties", .record [("template_id", .record [("const", .str "template.writer")]),
      ("source", .record [("type", .strings ["string", "null"]), ("maxLength", .int 80)])])]

def untyped : PythonValue Bool := .record []

theorem unflagged_provenance :
    templateIoSchemaIssues halfSupport [template]
      (fun direction _ => some (schema provenance direction)) = [] := by
  decide

theorem unflagged_untyped :
    templateIoSchemaIssues halfSupport [template]
      (fun direction _ => some (schema untyped direction)) = [] := by
  decide

theorem declared_object {schema : PythonValue Bool}
    (typed : schema.item? "type" = some (.str "object"))
    (unpatterned : schema.item? "patternProperties" = none)
    (listed : schema.item? "properties" = some (.mapping children))
    (each : ∀ entry ∈ children, Declared entry.2) :
    Declared schema := by
  refine .typed (.inl ⟨_, typed⟩) ?_ ?_ ?_
  · intro kind named
    rw [typed, kindsOf, List.mem_singleton] at named
    subst named
    exact ⟨fun _ => ⟨unpatterned, absurd typed⟩, fun same => absurd same (by decide),
      fun same => absurd same (by decide)⟩
  · intro _ found entry same member
    cases listed.symm.trans same
    exact each entry member
  · intro named
    rw [typed, kindsOf, List.mem_singleton] at named
    exact absurd named (by decide)

theorem declared_source :
    Declared (.record [("type", .strings ["string", "null"]), ("maxLength", .int 80)] :
      PythonValue Bool) := by
  have kinds : kindsOf ((.record [("type", .strings ["string", "null"]), ("maxLength", .int 80)] :
      PythonValue Bool).item? "type") = ["string", "null"] := rfl
  refine .typed (.inr ⟨_, rfl⟩) ?_ ?_ ?_
  · intro kind named
    rw [kinds] at named
    refine ⟨fun same => ?_, fun same => ?_, fun _ =>
      ⟨fun limit found => ?_, fun options found => ?_, fun _ => .inr (.inr rfl)⟩⟩
    · subst same
      exact absurd named (by decide)
    · subst same
      exact absurd named (by decide)
    · cases found
    · cases found
  · intro named
    rw [kinds] at named
    exact absurd named (by decide)
  · intro named
    rw [kinds] at named
    exact absurd named (by decide)

theorem declared_provenance (direction : Direction) : Declared (schema provenance direction) := by
  have noted : Declared provenance := by
    refine declared_object rfl rfl rfl (List.forall_mem_cons.mpr ⟨.constant rfl, ?_⟩)
    exact List.forall_mem_singleton.mpr declared_source
  exact declared_object rfl rfl rfl (List.forall_mem_singleton.mpr noted)

theorem template_schemas_bounded_provenance : ∃ bound, ∀ value,
    Valid (fun _ _ => false) Eq (fun _ _ => True) (schema provenance .output) value →
      extent value ≤ bound := by
  obtain ⟨found, same, bounds⟩ := template_schemas_bounded (fun _ _ => false) Eq (fun _ _ => True)
    unflagged_provenance (List.mem_singleton_self template) .output
  cases same
  exact bounds (declared_provenance .output)

theorem valid_untyped (text : String) :
    Valid (fun _ _ => false) Eq (fun _ _ => True) untyped (.str text) := by
  have none_found : ∀ name, untyped.item? name = none := fun _ => rfl
  refine .keywords ⟨[], rfl⟩ ?_ ?_ ?_ ?_ ?_ ?_ ?_ ?_ ?_ ?_ ?_ ?_ trivial <;> simp [none_found]

theorem valid_request (text : String) :
    Valid (fun _ _ => false) Eq (fun _ _ => True) (schema untyped .input)
    (.record [("request", .str text)]) := by
  refine .keywords ⟨_, rfl⟩ ?_ ?_ ?_ ?_ ?_ ?_ ?_ ?_ ?_ ?_ ?_ ?_ trivial
  · intro kind found
    cases found
    rfl
  · intro kinds found
    cases found
  · intro limit name found
    cases found
  · intro constant found
    cases found
  · intro options found
    cases found
  · intro limit items found
    cases found
  · intro members same
    cases same
    simp
  · intro members children name item child same found member listed
    cases same
    cases found
    cases List.mem_singleton.mp member
    cases List.mem_singleton.mp listed
    exact valid_untyped text
  · intro members children name item pattern child same found
    cases found
  · intro members child name item same found member fresh
    cases same
    cases List.mem_singleton.mp member
    exact absurd List.mem_cons_self (fresh _ rfl)
  · intro items firsts index item child same
    cases same
  · intro items child index item same
    cases same

/-- The checks report nothing, but no number bounds what is valid. -/
theorem untyped_unbounded :
    templateIoSchemaIssues halfSupport [template]
      (fun direction _ => some (schema untyped direction)) = [] ∧
      ∀ bound, ∃ value, Valid (fun _ _ => false) Eq (fun _ _ => True)
        (schema untyped .input) value ∧ bound < extent value := by
  refine ⟨unflagged_untyped, fun bound =>
    ⟨_, valid_request (String.ofList (List.replicate bound 'x')), ?_⟩⟩
  simp only [PythonValue.record, List.map_cons, List.map_nil, extent, membersExtent,
    String.length_ofList, List.length_replicate]
  omega

end OneProperty

end MarketingAgents.Catalog
