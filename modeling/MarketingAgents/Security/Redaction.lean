import MarketingAgents.Library.Json

namespace MarketingAgents

open Library

/-! # Schema-aware masking -/

/-- The Unicode operations of the language that names pass through. -/
structure TextSupport where
  nfc : String → String
  strip : String → String
  lower : String → String
  nfc_idempotent : ∀ text, nfc (nfc text) = nfc text

def redactedMarker : JsonValue := .scalar (.string "[REDACTED]")

def sensitiveKeyFragments : List String :=
  ["api_key", "apikey", "authorization", "credential", "email", "full_name", "password", "phone",
    "private_key", "secret", "session_key", "signature", "token"]

def isSensitiveKey (text : TextSupport) (key : String) : Bool :=
  let normalized := (text.lower (text.strip key)).toList.map fun character =>
    if character = '-' then '_' else character
  sensitiveKeyFragments.any fun fragment => normalized.tails.any fun tail =>
    fragment.toList.isPrefixOf tail

/-- The projection schemas that are compiled from pointers: a sensitive leaf, or
the schemas of named members. -/
inductive ProjectionSchema where
  | sensitive
  | object (properties : List (String × ProjectionSchema))

namespace ProjectionSchema

def property? (properties : List (String × ProjectionSchema)) (name : String) :
    Option ProjectionSchema :=
  (properties.find? fun entry => entry.1 = name).map Prod.snd

/-- The schema of a named member: the exact one, else the wildcard. -/
def child? : ProjectionSchema → String → Option ProjectionSchema
  | .sensitive, _ => none
  | .object properties, name => (property? properties name).orElse fun _ => property? properties "*"

def requiresRedaction : Option ProjectionSchema → Bool
  | some .sensitive => true
  | _ => false

end ProjectionSchema

mutual

/-- A recursively redacted copy of a value. -/
def redact (text : TextSupport) (schema : Option ProjectionSchema) (fieldName : Option String)
    (value : JsonValue) : JsonValue :=
  if ProjectionSchema.requiresRedaction schema then redactedMarker
  else if fieldName.any (isSensitiveKey text) then redactedMarker
  else
    match value with
    | .object members => .object (redactMembers text schema members)
    | .array items => .array (redactItems text schema 0 items)
    | .scalar scalar => .scalar scalar

def redactMembers (text : TextSupport) (schema : Option ProjectionSchema) :
    List (String × JsonValue) → List (String × JsonValue)
  | [] => []
  | (name, item) :: rest =>
      (name, redact text (schema.bind (·.child? name)) (some name) item) ::
        redactMembers text schema rest

def redactItems (text : TextSupport) (schema : Option ProjectionSchema) (index : Nat) :
    List JsonValue → List JsonValue
  | [] => []
  | item :: rest =>
      redact text (schema.bind (·.child? (toString index))) none item ::
        redactItems text schema (index + 1) rest

end

end MarketingAgents
