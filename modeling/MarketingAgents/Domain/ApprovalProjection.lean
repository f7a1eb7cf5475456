import MarketingAgents.Domain.Validation
import MarketingAgents.Security.Redaction

namespace MarketingAgents

open Library

/-! # The projection that an approver sees -/

/-- Every tilde of a token starts one of the two escapes. -/
def escapesValid : List Char → Bool
  | [] => true
  | '~' :: digit :: rest => (digit = '0' || digit = '1') && escapesValid (digit :: rest)
  | ['~'] => false
  | _ :: rest => escapesValid rest

/-- Replace one escape, from left to right. -/
def replaceEscape (digit replacement : Char) : List Char → List Char
  | [] => []
  | '~' :: next :: rest =>
      if next = digit then replacement :: replaceEscape digit replacement rest
      else '~' :: replaceEscape digit replacement (next :: rest)
  | character :: rest => character :: replaceEscape digit replacement rest

def decodeToken (token : List Char) : String :=
  String.ofList (replaceEscape '0' '~' (replaceEscape '1' '/' token))

/-- The tokens of one pointer, which may not be the root. -/
def decodePointer (fieldName pointer : String) : Except Rejection (List String) := do
  let characters := pointer.toList
  require (characters.head? = some '/' ∧ pointer ≠ "/" ∧ characters.length ≤ 1000) "ValueError"
    (fieldName ++ " must contain non-root JSON pointers")
  let encoded := characters.tail.splitOn '/'
  require (encoded.all fun token => token ≠ [] && escapesValid token) "ValueError"
    (fieldName ++ " contains an invalid JSON pointer")
  return encoded.map decodeToken

def overlapping (left right : List String) : Bool := left.isPrefixOf right || right.isPrefixOf left

def decodePointers (fieldName : String) (decodedPaths : List (List String)) :
    List String → Except Rejection (List (List String))
  | [] => .ok decodedPaths
  | pointer :: rest => do
      let decoded ← decodePointer fieldName pointer
      require (decodedPaths.all fun existing => !overlapping decoded existing) "ValueError"
        (fieldName ++ " must not contain overlapping JSON pointers")
      decodePointers fieldName (decodedPaths ++ [decoded]) rest

/-- Unique, non-root paths of which none overlaps another. -/
def requireJsonPointers (values : List String) (fieldName : String) :
    Except Rejection (List (List String)) := do
  require values.Nodup "ValueError" (fieldName ++ " must contain unique JSON pointers")
  decodePointers fieldName [] values

namespace ProjectionSchema

/-- Set the schema of a named member, in its place or behind the others. -/
def setProperty (properties : List (String × ProjectionSchema)) (name : String)
    (schema : ProjectionSchema) : List (String × ProjectionSchema) :=
  if properties.any fun entry => entry.1 = name then
    properties.map fun entry => if entry.1 = name then (name, schema) else entry
  else properties ++ [(name, schema)]

/-- The members below a child, which is created empty where it is missing. -/
def childProperties (properties : List (String × ProjectionSchema)) (name : String) :
    List (String × ProjectionSchema) :=
  match property? properties name with
  | some (.object children) => children
  | _ => []

/-- Mark the end of one path as sensitive. -/
def insertPath : List String → List (String × ProjectionSchema) → List (String × ProjectionSchema)
  | [], properties => properties
  | [token], properties => setProperty properties token .sensitive
  | token :: rest, properties =>
      setProperty properties token (.object (insertPath rest (childProperties properties token)))

end ProjectionSchema

/-- The approval projection schema of a sealed step. -/
def approvalRedactionSchema (fields : List String) : Except Rejection ProjectionSchema := do
  let decodedPaths ← requireJsonPointers fields "approval redaction fields"
  return .object (decodedPaths.foldl (fun properties tokens =>
    ProjectionSchema.insertPath tokens properties) [])

mutual

/-- Every member name of a value is normalized, and no object repeats one. -/
def JsonValue.namesNormalized (text : TextSupport) : JsonValue → Bool
  | .scalar _ => true
  | .array items => itemsNormalized text items
  | .object members => (members.map Prod.fst).Nodup && membersNormalized text members

def itemsNormalized (text : TextSupport) : List JsonValue → Bool
  | [] => true
  | item :: rest => JsonValue.namesNormalized text item && itemsNormalized text rest

def membersNormalized (text : TextSupport) : List (String × JsonValue) → Bool
  | [] => true
  | (name, item) :: rest =>
      text.nfc name = name && JsonValue.namesNormalized text item && membersNormalized text rest

end

/-- The part of an action envelope that its projection shows, with the payload
as it was frozen in its canonical form. -/
structure CanonicalExternalAction (text : TextSupport) where
  actionType : String
  capabilityId : String
  connectorFamily : String
  bindingId : String
  minimizedPayload : List (String × JsonValue)
  payloadNormalized : JsonValue.namesNormalized text (.object minimizedPayload) = true

structure RedactedProjection where
  actionType : String
  capabilityId : String
  connectorFamily : String
  bindingId : String
  destination : String
  payload : JsonValue

def safeApprovalDestination (bindingId : String) : Except Rejection String := do
  requireId bindingId "approval binding ID"
  return "configured destination via " ++ bindingId

/-- Recompute the only projection allowed for a persisted planned action. -/
def expectedApprovalProjection (text : TextSupport) (action : CanonicalExternalAction text)
    (requestRedactionFields : List String) : Except Rejection RedactedProjection := do
  let destination ← safeApprovalDestination action.bindingId
  let payloadSchema ← approvalRedactionSchema requestRedactionFields
  return {
    actionType := action.actionType
    capabilityId := action.capabilityId
    connectorFamily := action.connectorFamily
    bindingId := action.bindingId
    destination
    payload := redact text (some payloadSchema) none (.object action.minimizedPayload) }

end MarketingAgents
