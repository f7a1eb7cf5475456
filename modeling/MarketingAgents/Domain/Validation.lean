import MarketingAgents.Domain.Rejection

namespace MarketingAgents

def alphanumeric (character : Char) : Bool :=
  'A' ≤ character && character ≤ 'Z' || 'a' ≤ character && character ≤ 'z' ||
    '0' ≤ character && character ≤ '9'

/-- A stable nonempty identifier. -/
def requireId (value fieldName : String) : Except Rejection Unit :=
  require (value.toList.head?.any alphanumeric ∧ value.toList.length ≤ 240 ∧
      value.toList.all fun character => alphanumeric character ||
        character ∈ [':', '.', '_', '/', '-'])
    "ValueError" (fieldName ++ " must be a stable nonempty identifier")

def hexadecimal (character : Char) : Bool :=
  '0' ≤ character && character ≤ '9' || 'a' ≤ character && character ≤ 'f'

def digestText (characters : List Char) : Bool :=
  characters.length = 64 && characters.all hexadecimal

/-- A lowercase SHA-256 digest. -/
def requireDigest (value fieldName : String) : Except Rejection Unit :=
  require (digestText value.toList) "ValueError"
    (fieldName ++ " must be a lowercase SHA-256 digest")

/-- A versioned canonical schema hash. -/
def requireSchemaHash (value fieldName : String) : Except Rejection Unit :=
  require ("schema-sha256-v1:".toList <+: value.toList ∧
      digestText (value.toList.drop "schema-sha256-v1:".toList.length))
    "ValueError" (fieldName ++ " must be a canonical JSON Schema hash")

/-- Check the members of a collection one after the other. -/
def requireEach {α : Type} (check : α → Except Rejection Unit) : List α → Except Rejection Unit
  | [] => .ok ()
  | first :: rest => do
      check first
      requireEach check rest

/-- Check a value where there is one. -/
def requireOptional {α : Type} (check : α → Except Rejection Unit) :
    Option α → Except Rejection Unit
  | none => .ok ()
  | some value => check value

def requireUnique (values : List String) (fieldName : String) : Except Rejection Unit := do
  require values.Nodup "ValueError" (fieldName ++ " must contain unique identifiers")
  requireEach (requireId · fieldName) values

/-- A digest behind a version prefix, or the text itself without the prefix. -/
def removePrefix (start text : String) : String :=
  if start.toList <+: text.toList then String.ofList (text.toList.drop start.toList.length)
    else text

section

variable {α : Type} {check : α → Except Rejection Unit} {done : Unit}

theorem requireEach_ok :
    requireEach check values = .ok done ↔ ∀ value ∈ values, check value = .ok () := by
  induction values with
  | nil => simp [requireEach]
  | cons first rest ih =>
      simp only [requireEach, bind_ok, ih, List.forall_mem_cons]
      exact ⟨fun ⟨_, checked, others⟩ => ⟨checked, others⟩,
        fun ⟨checked, others⟩ => ⟨(), checked, others⟩⟩

theorem requireOptional_ok :
    requireOptional check value = .ok done ↔ ∀ present ∈ value, check present = .ok () := by
  cases value <;> simp [requireOptional]

theorem requireId_ok (otherName : String)
    (stable : requireId value fieldName = .ok done) : requireId value otherName = .ok done := by
  rw [requireId, require_ok] at stable ⊢
  exact stable

end

end MarketingAgents
