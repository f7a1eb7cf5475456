import Mathlib.Data.List.Basic

namespace MarketingAgents.Library

/-! # JSON values and positions in them -/

inductive JsonScalar where
  | null
  | bool (value : Bool)
  | number (text : String)
  | string (text : String)
deriving DecidableEq

inductive JsonValue where
  | scalar (value : JsonScalar)
  | array (items : List JsonValue)
  | object (members : List (String × JsonValue))

/-- One step from a value to a value inside it. -/
inductive JsonStep where
  | member (name : String)
  | index (index : Nat)
deriving DecidableEq

namespace JsonStep

/-- A step as it is written in a pointer. -/
def token : JsonStep → String
  | .member name => name
  | .index number => toString number

def member? : JsonStep → Option String
  | .member name => some name
  | .index _ => none

end JsonStep

namespace JsonValue

def child? (value : JsonValue) : JsonStep → Option JsonValue
  | .member name =>
      match value with
      | .object members => (members.find? fun entry => entry.1 = name).map Prod.snd
      | _ => none
  | .index index =>
      match value with
      | .array items => items[index]?
      | _ => none

/-- The value at a position. -/
def at? (value : JsonValue) : List JsonStep → Option JsonValue
  | [] => some value
  | step :: rest => (value.child? step).bind fun child => child.at? rest

mutual

/-- Equality of values, decided along their structure. -/
def decEq : (left right : JsonValue) → Decidable (left = right)
  | .scalar left, .scalar right =>
      if same : left = right then .isTrue (same ▸ rfl)
        else .isFalse fun equal => same (JsonValue.scalar.inj equal)
  | .array left, .array right =>
      match decEqItems left right with
      | .isTrue same => .isTrue (same ▸ rfl)
      | .isFalse differs => .isFalse fun equal => differs (JsonValue.array.inj equal)
  | .object left, .object right =>
      match decEqMembers left right with
      | .isTrue same => .isTrue (same ▸ rfl)
      | .isFalse differs => .isFalse fun equal => differs (JsonValue.object.inj equal)
  | .scalar _, .array _ | .scalar _, .object _ | .array _, .scalar _ | .array _, .object _ |
    .object _, .scalar _ | .object _, .array _ => .isFalse fun equal => nomatch equal

def decEqItems : (left right : List JsonValue) → Decidable (left = right)
  | [], [] => .isTrue rfl
  | first :: rest, other :: others =>
      match decEq first other, decEqItems rest others with
      | .isTrue same, .isTrue equal => .isTrue (same ▸ equal ▸ rfl)
      | .isFalse differs, _ => .isFalse fun equal => differs (List.cons.inj equal).1
      | _, .isFalse differs => .isFalse fun equal => differs (List.cons.inj equal).2
  | [], _ :: _ | _ :: _, [] => .isFalse fun equal => nomatch equal

def decEqMembers : (left right : List (String × JsonValue)) → Decidable (left = right)
  | [], [] => .isTrue rfl
  | (name, first) :: rest, (label, other) :: others =>
      if named : name = label then
        match decEq first other, decEqMembers rest others with
        | .isTrue same, .isTrue equal => .isTrue (named ▸ same ▸ equal ▸ rfl)
        | .isFalse differs, _ =>
          .isFalse fun equal => differs (Prod.mk.inj (List.cons.inj equal).1).2
        | _, .isFalse differs => .isFalse fun equal => differs (List.cons.inj equal).2
      else .isFalse fun equal => named (Prod.mk.inj (List.cons.inj equal).1).1
  | [], _ :: _ | _ :: _, [] => .isFalse fun equal => nomatch equal

end

instance : DecidableEq JsonValue := decEq

variable {value child : JsonValue} {step : JsonStep} {rest front back : List JsonStep}

@[simp] theorem at?_nil : value.at? [] = some value := rfl

theorem at?_cons : value.at? (step :: rest) = (value.child? step).bind fun child =>
  child.at? rest := rfl

@[simp] theorem child?_scalar {scalar : JsonScalar} :
    (JsonValue.scalar scalar).child? step = none := by
  cases step <;> rfl

end JsonValue

end MarketingAgents.Library
