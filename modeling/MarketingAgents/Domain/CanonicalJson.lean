import Mathlib.Data.List.Sort
import Mathlib.Data.String.Basic
import MarketingAgents.Domain.Rejection
import MarketingAgents.Library.JsonText
import MarketingAgents.Security.Redaction

namespace MarketingAgents

open Library
open Library.JsonText

/-! # Canonical JSON

The values that integrity and idempotency digests are taken of, their one
normalized text, and reading that text back.
-/

/-- The number formats of the language: floats with their shortest exact text
and the longest integer that is converted from or to one. -/
structure NumberSupport (φ : Type) where
  finite : φ → Bool
  repr : φ → String
  parse : String → φ
  maxStrDigits : Nat
  repr_number : ∀ value, finite value = true → IsNumber (repr value).toList
  repr_fractional : ∀ value, finite value = true →
    ∃ mark ∈ (repr value).toList, mark ∈ ['.', 'e', 'E']
  parse_repr : ∀ value, finite value = true → parse (repr value) = value

/-- The values of the language.  A mapping may have keys that are not strings,
and there are values that JSON does not know. -/
inductive PythonValue (φ : Type) where
  | null
  | bool (value : Bool)
  | int (value : Int)
  | float (value : φ)
  | str (text : String)
  | mapping (members : List (Option String × PythonValue φ))
  | sequence (items : List (PythonValue φ))
  | other (typeName : String)

section

variable {φ : Type} (text : TextSupport) (numbers : NumberSupport φ)

mutual

/-- Strings and keys in their composed form, where every key stays distinct. -/
def PythonValue.normalize : PythonValue φ → Except Rejection (PythonValue φ)
  | .null => .ok .null
  | .bool value => .ok (.bool value)
  | .int value => .ok (.int value)
  | .float value =>
      if numbers.finite value then .ok (.float value)
      else reject "CanonicalJsonError" "non-finite numbers are not canonical JSON"
  | .str value => .ok (.str (text.nfc value))
  | .mapping members => do
      require (members.all (·.1.isSome)) "CanonicalJsonError"
        "canonical JSON object keys must be strings"
      let normalized ← normalizeMembers members
      require (normalized.map Prod.fst).Nodup
        "CanonicalJsonError" "object keys collide after Unicode normalization"
      return .mapping normalized
  | .sequence items => do
      let normalized ← normalizeItems items
      return .sequence normalized
  | .other typeName =>
    reject "CanonicalJsonError" ("unsupported canonical JSON value: " ++ typeName)

def normalizeItems : List (PythonValue φ) → Except Rejection (List (PythonValue φ))
  | [] => .ok []
  | item :: rest => do
      let normalized ← item.normalize
      let others ← normalizeItems rest
      return normalized :: others

def normalizeMembers : List (Option String × PythonValue φ) →
    Except Rejection (List (Option String × PythonValue φ))
  | [] => .ok []
  | (key, item) :: rest => do
      let normalized ← item.normalize
      let others ← normalizeMembers rest
      return (key.map text.nfc, normalized) :: others

end

/-- The digits of an integer behind its sign. -/
def intText (value : Int) : List Char :=
  if value < 0 then '-' :: Nat.toDigits 10 value.natAbs else Nat.toDigits 10 value.natAbs

/-- Members come in the order of their names. -/
def NamedBefore (left right : String × JsonValue) : Prop := left.1 ≤ right.1

instance : DecidableRel NamedBefore :=
  fun left right => inferInstanceAs (Decidable (left.1 ≤ right.1))

mutual

/-- The document that is written of a value, with sorted keys. -/
def PythonValue.document : PythonValue φ → Except Rejection JsonValue
  | .null => .ok (.scalar .null)
  | .bool value => .ok (.scalar (.bool value))
  | .int value => do
      require ((Nat.toDigits 10 value.natAbs).length ≤ numbers.maxStrDigits)
        "ValueError" "integer exceeds the limit for integer string conversion"
      return .scalar (.number (String.ofList (intText value)))
  | .float value => do
      require (numbers.finite value) "ValueError" "Out of range float values are not JSON compliant"
      return .scalar (.number (numbers.repr value))
  | .str value => .ok (.scalar (.string value))
  | .mapping members => do
      let documents ← documentMembers members
      return .object (documents.insertionSort NamedBefore)
  | .sequence items => do
      let documents ← documentItems items
      return .array documents
  | .other typeName =>
    reject "TypeError" ("Object of type " ++ typeName ++ " is not JSON serializable")

def documentItems : List (PythonValue φ) → Except Rejection (List JsonValue)
  | [] => .ok []
  | item :: rest => do
      let written ← item.document
      let others ← documentItems rest
      return written :: others

def documentMembers : List (Option String × PythonValue φ) →
    Except Rejection (List (String × JsonValue))
  | [] => .ok []
  | (none, _) :: _ => reject "TypeError" "keys must be str, int, float, bool or None"
  | (some name, item) :: rest => do
      let written ← item.document
      let others ← documentMembers rest
      return (name, written) :: others

end

def canonicalJsonBytes (value : PythonValue φ) : Except Rejection ByteArray := do
  let normalized ← value.normalize text numbers
  let document ← normalized.document numbers
  return (String.ofList (printValue document)).toByteArray

def integral (text : String) : Bool :=
  text.toList.all fun character => isDigit character || character = '-'

/-- The integer that a number without fraction and exponent stands for. -/
def readInt (text : String) : Option Int :=
  let signed := scanSign text.toList
  if signed.2.length ≤ numbers.maxStrDigits then
    some (if signed.1 = [] then Nat.ofDigitChars 10 signed.2 0
      else -(Nat.ofDigitChars 10 signed.2 0 : Int))
  else none

/-- The last value of every name, in the place of the first. -/
def dictionary (members : List (String × PythonValue φ)) : List (Option String × PythonValue φ) :=
  members.foldl (fun known member =>
    if known.any fun entry => entry.1 = some member.1 then
      known.map fun entry => if entry.1 = some member.1 then (some member.1, member.2) else entry
    else known ++ [(some member.1, member.2)]) []

mutual

def PythonValue.ofJson : JsonValue → Option (PythonValue φ)
  | .scalar .null => some .null
  | .scalar (.bool value) => some (.bool value)
  | .scalar (.number text) =>
      if integral text then (readInt numbers text).map .int else some (.float (numbers.parse text))
  | .scalar (.string text) => some (.str text)
  | .array items => (ofJsonItems items).map .sequence
  | .object members => (ofJsonMembers members).map fun read => .mapping (dictionary read)

def ofJsonItems : List JsonValue → Option (List (PythonValue φ))
  | [] => some []
  | item :: rest => do
      let read ← PythonValue.ofJson item
      let others ← ofJsonItems rest
      some (read :: others)

def ofJsonMembers : List (String × JsonValue) → Option (List (String × PythonValue φ))
  | [] => some []
  | (name, item) :: rest => do
      let read ← PythonValue.ofJson item
      let others ← ofJsonMembers rest
      some ((name, read) :: others)

end

/-- Read a JSON text that is encoded in UTF-8. -/
def jsonLoads (bytes : ByteArray) : Option (PythonValue φ) := do
  let decoded ← String.fromUTF8? bytes
  let document ← parse decoded.toList
  PythonValue.ofJson numbers document

/-- A validated snapshot of one JSON object. -/
def frozenJsonMapping (value : PythonValue φ) (fieldName : String) :
    Except Rejection (PythonValue φ) :=
  match value with
  | .mapping _ => do
      let bytes ← canonicalJsonBytes text numbers value
      requireSome (jsonLoads numbers bytes) "ValueError" "invalid JSON"
  | _ => reject "ValueError" (fieldName ++ " must be a JSON object")

end

end MarketingAgents
